import SdlAssembly.Grammar.Tree
import SdlAssembly.Proofs.Lexing.Spelling

/-!
# The grammar of values and selections

The lexemes that a tree is written with, the trees that can be written, and how deep they nest. The
grammar says nothing of places, so what is read back is the tree without them.
-/

namespace SdlAssembly.Grammar

open Text Lexer

/-! ## Values -/

namespace Value

mutual

def lexemes : Value → List Lexeme
  | .variable name => [.punctuator .dollar, .name name]
  | .int text => [.int text]
  | .float text => [.float text]
  | .string text block => [.string text block]
  | .boolean true => [.name "true"]
  | .boolean false => [.name "false"]
  | .null => [.name "null"]
  | .enum name => [.name name]
  | .list items =>
    .punctuator .bracketOpen :: (itemLexemes items ++ [.punctuator .bracketClose])
  | .object fields =>
    .punctuator .braceOpen :: (fieldLexemes fields ++ [.punctuator .braceClose])

def itemLexemes : List Value → List Lexeme
  | [] => []
  | item :: rest => item.lexemes ++ itemLexemes rest

def fieldLexemes : List (String × Value) → List Lexeme
  | [] => []
  | (key, value) :: rest =>
    .name key :: .punctuator .colon :: (value.lexemes ++ fieldLexemes rest)

end

/-- Names that stand for other values than enum values. -/
def reserved : List String := ["true", "false", "null"]

mutual

/-- Values that can be written; a constant value has no variables. -/
def Proper (constant : Bool) : Value → Prop
  | .variable name => constant = false ∧ IsName name
  | .int text => Formed (.int text)
  | .float text => Formed (.float text)
  | .string text block => Formed (.string text block)
  | .boolean _ | .null => True
  | .enum name => IsName name ∧ name ∉ reserved
  | .list items => ProperItems constant items
  | .object fields => ProperFields constant fields

def ProperItems (constant : Bool) : List Value → Prop
  | [] => True
  | item :: rest => item.Proper constant ∧ ProperItems constant rest

def ProperFields (constant : Bool) : List (String × Value) → Prop
  | [] => True
  | (key, value) :: rest => (IsName key ∧ value.Proper constant) ∧ ProperFields constant rest

end

mutual

/-- The levels of lists and objects in a value. -/
def depth : Value → Nat
  | .list items => itemsDepth items + 1
  | .object fields => fieldsDepth fields + 1
  | _ => 0

def itemsDepth : List Value → Nat
  | [] => 0
  | item :: rest => max item.depth (itemsDepth rest)

def fieldsDepth : List (String × Value) → Nat
  | [] => 0
  | (_, value) :: rest => max value.depth (fieldsDepth rest)

end

def fieldLexemesOf (field : String × Value) : List Lexeme :=
  .name field.1 :: .punctuator .colon :: field.2.lexemes

theorem itemLexemes_eq (items : List Value) : itemLexemes items = items.flatMap lexemes := by
  induction items with
  | nil => rfl
  | cons item rest ih => simp [itemLexemes, ih]

theorem fieldLexemes_eq (fields : List (String × Value)) :
    fieldLexemes fields = fields.flatMap fieldLexemesOf := by
  induction fields with
  | nil => rfl
  | cons field rest ih => simp [fieldLexemes, fieldLexemesOf, ih]

theorem properItems_iff {constant : Bool} {items : List Value} :
    ProperItems constant items ↔ ∀ item ∈ items, item.Proper constant := by
  induction items with
  | nil => simp [ProperItems]
  | cons item rest ih => simp [ProperItems, ih]

theorem properFields_iff {constant : Bool} {fields : List (String × Value)} :
    ProperFields constant fields ↔ ∀ f ∈ fields, IsName f.1 ∧ f.2.Proper constant := by
  induction fields with
  | nil => simp [ProperFields]
  | cons field rest ih =>
      obtain ⟨key, value⟩ := field
      simp [ProperFields, ih]

theorem itemsDepth_le {items : List Value} {n : Nat} :
    itemsDepth items ≤ n ↔ ∀ item ∈ items, item.depth ≤ n := by
  induction items with
  | nil => simp [itemsDepth]
  | cons item rest ih => rw [itemsDepth, Nat.max_le, ih, List.forall_mem_cons]

theorem fieldsDepth_le {fields : List (String × Value)} {n : Nat} :
    fieldsDepth fields ≤ n ↔ ∀ f ∈ fields, f.2.depth ≤ n := by
  induction fields with
  | nil => simp [fieldsDepth]
  | cons field rest ih =>
      obtain ⟨key, value⟩ := field
      rw [fieldsDepth, Nat.max_le, ih, List.forall_mem_cons]

end Value

/-! ## Arguments and directives -/

/-- The greatest of the numbers of some items. -/
def greatest {α : Type} (measure : α → Nat) (items : List α) : Nat :=
  (items.map measure).foldr max 0

theorem greatest_le {α : Type} {measure : α → Nat} {items : List α} {n : Nat} :
    greatest measure items ≤ n ↔ ∀ item ∈ items, measure item ≤ n := by
  induction items with
  | nil => simp [greatest]
  | cons item rest ih =>
      rw [greatest, List.map_cons, List.foldr_cons, Nat.max_le, ← greatest, ih]
      simp

namespace Argument

def lexemes (a : Argument) : List Lexeme :=
  .name a.name :: .punctuator .colon :: a.value.lexemes

structure Proper (P : Option Position → Prop) (constant : Bool) (a : Argument) : Prop where
  name : IsName a.name
  value : a.value.Proper constant
  place : P a.position

def depth (a : Argument) : Nat := a.value.depth

def unplaced (a : Argument) : Argument := { a with position := none }

end Argument

namespace Directive

def lexemes (d : Directive) : List Lexeme :=
  .punctuator .atSign :: .name d.name
    :: enclosed .parenOpen .parenClose (d.arguments.map Argument.lexemes)

structure Proper (P : Option Position → Prop) (constant : Bool) (d : Directive) : Prop where
  name : IsName d.name
  arguments : ∀ a ∈ d.arguments, a.Proper P constant
  place : P d.position

def depth (d : Directive) : Nat := greatest Argument.depth d.arguments

def unplaced (d : Directive) : Directive :=
  { d with arguments := d.arguments.map Argument.unplaced, position := none }

end Directive

/-! ## Selections -/

namespace Selection

mutual

def lexemes : Selection → List Lexeme
  | .spread name directives =>
    .punctuator .spread :: .name name :: directives.flatMap Directive.lexemes
  | .inline condition directives selections =>
    .punctuator .spread :: ((condition.map fun name => [.name "on", .name name]).getD []
      ++ directives.flatMap Directive.lexemes
      ++ .punctuator .braceOpen :: (allLexemes selections ++ [.punctuator .braceClose]))
  | .field aliasName name arguments directives selections =>
    (aliasName.map fun text => [.name text, .punctuator .colon]).getD []
      ++ .name name :: (enclosed .parenOpen .parenClose (arguments.map Argument.lexemes)
      ++ directives.flatMap Directive.lexemes
      ++ match selections with
        | none => []
        | some set => .punctuator .braceOpen :: (allLexemes set ++ [.punctuator .braceClose]))

def allLexemes : List Selection → List Lexeme
  | [] => []
  | selection :: rest => selection.lexemes ++ allLexemes rest

end

mutual

/-- Selections that can be written; their selection sets are not empty. -/
def Proper (P : Option Position → Prop) : Selection → Prop
  | .spread name directives =>
    (IsName name ∧ name ≠ "on") ∧ ∀ d ∈ directives, d.Proper P false
  | .inline condition directives selections =>
    (∀ name ∈ condition, IsName name) ∧ (∀ d ∈ directives, d.Proper P false)
      ∧ selections ≠ [] ∧ AllProper P selections
  | .field aliasName name arguments directives selections =>
    (∀ text ∈ aliasName, IsName text) ∧ IsName name ∧ (∀ a ∈ arguments, a.Proper P false)
      ∧ (∀ d ∈ directives, d.Proper P false)
      ∧ match selections with
        | none => True
        | some set => set ≠ [] ∧ AllProper P set

def AllProper (P : Option Position → Prop) : List Selection → Prop
  | [] => True
  | selection :: rest => selection.Proper P ∧ AllProper P rest

end

mutual

/-- The levels inside a selection. -/
def depth : Selection → Nat
  | .spread _ directives => greatest Directive.depth directives
  | .inline _ directives selections =>
    max (greatest Directive.depth directives) (allDepth selections + 1)
  | .field _ _ arguments directives selections =>
    max (greatest Argument.depth arguments) (max (greatest Directive.depth directives)
      (match selections with
        | none => 0
        | some set => allDepth set + 1))

def allDepth : List Selection → Nat
  | [] => 0
  | selection :: rest => max selection.depth (allDepth rest)

end

mutual

def unplaced : Selection → Selection
  | .spread name directives => .spread name (directives.map Directive.unplaced)
  | .inline condition directives selections =>
    .inline condition (directives.map Directive.unplaced) (allUnplaced selections)
  | .field aliasName name arguments directives selections =>
    .field aliasName name (arguments.map Argument.unplaced) (directives.map Directive.unplaced)
      (match selections with
        | none => none
        | some set => some (allUnplaced set))

def allUnplaced : List Selection → List Selection
  | [] => []
  | selection :: rest => selection.unplaced :: allUnplaced rest

end

theorem allLexemes_eq (set : List Selection) : allLexemes set = set.flatMap lexemes := by
  induction set with
  | nil => rfl
  | cons selection rest ih => simp [allLexemes, ih]

theorem allProper_iff {P : Option Position → Prop} {set : List Selection} :
    AllProper P set ↔ ∀ s ∈ set, s.Proper P := by
  induction set with
  | nil => simp [AllProper]
  | cons selection rest ih => simp [AllProper, ih]

theorem allDepth_le {set : List Selection} {n : Nat} :
    allDepth set ≤ n ↔ ∀ s ∈ set, s.depth ≤ n := by
  induction set with
  | nil => simp [allDepth]
  | cons selection rest ih => rw [allDepth, Nat.max_le, ih, List.forall_mem_cons]

theorem allUnplaced_eq (set : List Selection) : allUnplaced set = set.map unplaced := by
  induction set with
  | nil => rfl
  | cons selection rest ih => simp [allUnplaced, ih]

/-! ## Fields -/

/-- The lexemes of selections between braces. -/
def setLexemes (set : SelectionSet) : List Lexeme :=
  .punctuator .braceOpen :: (allLexemes set ++ [.punctuator .braceClose])

/-- The lexemes of the sub-selections of a field. -/
def subLexemes : Option SelectionSet → List Lexeme
  | none => []
  | some set => setLexemes set

def subDepth : Option SelectionSet → Nat
  | none => 0
  | some set => allDepth set + 1

section Field

variable {aliasName : Option String} {name : String} {arguments : List Argument}
  {directives : List Directive} {selections : Option SelectionSet}

theorem lexemes_field :
    (field aliasName name arguments directives selections).lexemes =
      ((aliasName.map fun text => [.name text, .punctuator .colon]).getD [] ++ [.name name])
        ++ (enclosed .parenOpen .parenClose (arguments.map Argument.lexemes)
          ++ (directives.flatMap Directive.lexemes ++ subLexemes selections)) := by
  cases selections <;> simp [lexemes, subLexemes, setLexemes]

theorem lexemes_inline {condition : Option String} {set : SelectionSet} :
    (inline condition directives set).lexemes =
      .punctuator .spread :: ((condition.map fun name => [.name "on", .name name]).getD []
        ++ (directives.flatMap Directive.lexemes ++ setLexemes set)) := by
  simp [lexemes, setLexemes]

theorem proper_field {P : Option Position → Prop} :
    (field aliasName name arguments directives selections).Proper P ↔
      (∀ text ∈ aliasName, IsName text) ∧ IsName name ∧ (∀ a ∈ arguments, a.Proper P false)
        ∧ (∀ d ∈ directives, d.Proper P false)
        ∧ ∀ set ∈ selections, set ≠ [] ∧ AllProper P set := by
  cases selections <;> simp [Proper]

theorem depth_field_le {n : Nat} :
    (field aliasName name arguments directives selections).depth ≤ n ↔
      greatest Argument.depth arguments ≤ n ∧ greatest Directive.depth directives ≤ n
        ∧ subDepth selections ≤ n := by
  cases selections <;> simp only [depth, subDepth, Nat.max_le]

theorem unplaced_field :
    (field aliasName name arguments directives selections).unplaced =
      .field aliasName name (arguments.map Argument.unplaced) (directives.map Directive.unplaced)
        (selections.map allUnplaced) := by
  cases selections <;> simp [unplaced]

end Field

end Selection

/-! ## Trees without places -/

section Unplaced

variable {P : Option Position → Prop} {constant : Bool}

theorem map_eq_self {α : Type} {f : α → α} {xs : List α} (h : ∀ x ∈ xs, f x = x) :
    xs.map f = xs := by
  rw [List.map_congr_left h, List.map_id']

theorem Argument.Proper.unplaced_eq {a : Argument} (h : a.Proper P constant)
    (hP : ∀ place, P place → place = none) : a.unplaced = a := by
  have hp := hP _ h.place
  rw [Argument.unplaced, ← hp]

theorem Directive.Proper.unplaced_eq {d : Directive} (h : d.Proper P constant)
    (hP : ∀ place, P place → place = none) : d.unplaced = d := by
  have hp := hP _ h.place
  have ha : d.arguments.map Argument.unplaced = d.arguments :=
    map_eq_self fun a ha => (h.arguments a ha).unplaced_eq hP
  rw [Directive.unplaced, ha, ← hp]

theorem map_unplaced_eq {directives : List Directive}
    (h : ∀ d ∈ directives, d.Proper P constant) (hP : ∀ place, P place → place = none) :
    directives.map Directive.unplaced = directives :=
  map_eq_self fun d hd => (h d hd).unplaced_eq hP

mutual

theorem Selection.unplaced_eq (hP : ∀ place, P place → place = none) :
    (s : Selection) → s.Proper P → s.unplaced = s
  | .spread name directives, h => by
      rw [Selection.unplaced, map_unplaced_eq h.2 hP]
  | .inline condition directives set, h => by
      have hs := Selection.allUnplaced_eq_self hP set h.2.2.2
      rw [Selection.unplaced, map_unplaced_eq h.2.1 hP, hs]
  | .field aliasName name arguments directives selections, h => by
      obtain ⟨-, -, ha, hd, hs⟩ := Selection.proper_field.mp h
      have hargs : arguments.map Argument.unplaced = arguments :=
        map_eq_self fun a h => (ha a h).unplaced_eq hP
      rw [Selection.unplaced_field, hargs, map_unplaced_eq hd hP]
      cases selections with
      | none => rfl
      | some set =>
          have hset := Selection.allUnplaced_eq_self hP set (hs set rfl).2
          rw [Option.map_some, hset]

theorem Selection.allUnplaced_eq_self (hP : ∀ place, P place → place = none) :
    (set : List Selection) → Selection.AllProper P set → Selection.allUnplaced set = set
  | [], _ => rfl
  | selection :: rest, h => by
      have hs := Selection.unplaced_eq hP selection h.1
      have hr := Selection.allUnplaced_eq_self hP rest h.2
      rw [Selection.allUnplaced, hs, hr]

end

end Unplaced

end SdlAssembly.Grammar
