import SdlAssembly.Console.Layout
import SdlAssembly.Console.Markup
import SdlAssembly.Report.Json

/-!
# Messages on a console

What is told to the user next to the log: successes, hints, values by name, and reports. Texts may
hold markup; reports are shown as they are. What is told here is the texts; a device may dress them in
looks of its own.
-/

namespace SdlAssembly.Console

open Report

inductive Message where
  | success (text : String)
  | hint (text : String)
  | keyValue (key value style : String)
  | report (value : Json)
  deriving Repr

/-- The look of names of values. -/
def usualStyle : String := "dim"

/-- A message with its markup. -/
def Message.markup : Message → String
  | success text => "[green]✓[/green] " ++ text
  | hint text => "[dim]" ++ text ++ "[/dim]"
  | keyValue key value style => "[" ++ style ++ "]" ++ key ++ ":[/" ++ style ++ "] " ++ value
  | report value => value.displayText

/-- What a message shows. A console without cells shows nothing. -/
def Message.display (limit : Nat) (message : Message) : Except MarkupFault String := do
  let shown ← match message with
    | .report value => pure (value.displayText ++ "\n")
    | message => (plain message.markup).map (wrap limit)
  return if limit = 0 then "" else shown

/-! ## Devices -/

/-- What messages are shown on. -/
structure Device where
  width : Nat := 80
  /-- What is shown for the text of a message, where texts have looks. -/
  dress : Message → String → String := fun _ text => text
  /-- Which texts can be shown: a device may lack characters of them, or of what it still has to show
  of the log. -/
  canShow : String → Bool := fun _ => true

/-- Why a message is not shown. -/
inductive DisplayFault where
  | markup (fault : MarkupFault)
  /-- The device has not all of the characters. -/
  | unencodable
  deriving Repr

namespace Device

/-- What a device shows of a message. -/
def display (device : Device) (message : Message) : Except DisplayFault String := do
  let text ← (message.display device.width).mapError .markup
  let shown := device.dress message text
  if device.canShow shown then return shown else throw .unencodable

/-- What a device shows of messages, one after the other. -/
def displayAll (device : Device) : List Message → Except DisplayFault String
  | [] => .ok ""
  | message :: rest => do return (← device.display message) ++ (← device.displayAll rest)

end Device

end SdlAssembly.Console
