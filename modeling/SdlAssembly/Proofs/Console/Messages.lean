import SdlAssembly.Console.Message
import SdlAssembly.Proofs.Outcomes

/-!
# Messages that can be shown

A text without opening brackets holds no tags. After the tags of a message that are all closed it is
shown as it stands, so that only what a message quotes can keep it from being shown.
-/

namespace SdlAssembly.Console

/-! ## Texts without tags -/

def Piece.IsText (piece : Piece) : Prop := ∃ text, piece = .text text

theorem isText_textPiece (reversed : List Char) : ∀ piece ∈ textPiece reversed, piece.IsText := by
  unfold textPiece
  split
  · simp
  · intro piece hp
    exact ⟨_, List.mem_singleton.mp hp⟩

theorem isText_piecesFrom {cs : List Char} (h : '[' ∉ cs) (fuel position : Nat)
    (reversed : List Char) : ∀ piece ∈ piecesFrom fuel position reversed cs, piece.IsText := by
  induction fuel generalizing position reversed cs with
  | zero =>
      unfold piecesFrom
      exact isText_textPiece reversed
  | succ fuel ih =>
      cases cs with
      | nil =>
          unfold piecesFrom
          exact isText_textPiece reversed
      | cons c rest =>
          have hrest : '[' ∉ rest := fun hm => h (List.mem_cons_of_mem _ hm)
          unfold piecesFrom
          dsimp only
          split
          · rename_i more hd
            -- what is left after the backslashes is a part of the text
            have hm : '[' ∈ (c :: rest).drop ((c :: rest).takeWhile (· == '\\')).length := by
              rw [hd]
              exact List.mem_cons_self
            exact (h (List.mem_of_mem_drop hm)).elim
          · exact ih hrest _ _

/-- The tag that a closing tag closes. -/
def closedBy (opened : List OpenTag) (tag : MarkupTag) (position : Nat) (name : List Char) :
    Except MarkupFault OpenTag :=
  if (Text.trim name).isEmpty then
    (opened.head?.map Except.ok).getD (.error (.nothingOpen position))
  else do
    let name ← normalName name
    ((opened.find? (·.name == name)).map Except.ok).getD (.error (.unmatched tag.written position))

theorem renderPieces_closing {opened : List OpenTag} {tag : MarkupTag} {position : Nat}
    {name : List Char} {rest : List Piece} (h : tag.name = '/' :: name) :
    renderPieces opened (.tag tag position :: rest) = closedBy opened tag position name >>=
      fun found => found.close >>= fun _ =>
        renderPieces (opened.eraseP (·.name == found.name)) rest := by
  rw [renderPieces, closedBy]
  split
  · rename_i name' hn
    obtain rfl : name = name' := (List.cons.inj (h.symm.trans hn)).2
    split
    · cases opened.head? <;> rfl
    · cases normalName name with
      | error fault => rfl
      | ok found =>
          dsimp only [bind, Except.bind]
          cases opened.find? (·.name == found) <;> rfl
  · rename_i hn
    exact (hn name h).elim

theorem renderPieces_opening {opened : List OpenTag} {tag : MarkupTag} {position : Nat}
    {rest : List Piece} (h : ∀ name, tag.name ≠ '/' :: name) :
    renderPieces opened (.tag tag position :: rest) = normalName tag.name >>= fun name =>
      (fun result => (result.1, ⟨name, tag.parameters⟩ :: result.2)) <$>
        renderPieces (⟨name, tag.parameters⟩ :: opened) rest := by
  rw [renderPieces]
  split
  · rename_i name hn
    exact (h name hn).elim
  · cases normalName tag.name with
    | error fault => rfl
    | ok name =>
        dsimp only [bind, Except.bind]
        cases renderPieces (⟨name, tag.parameters⟩ :: opened) rest <;> rfl

/-- Texts without tags can follow all that can be shown, and open no tags. -/
theorem renderPieces_append {before texts : List Piece} (h : ∀ piece ∈ texts, piece.IsText)
    {opened tags : List OpenTag} {shown : List Char}
    (hb : renderPieces opened before = .ok (shown, tags)) :
    ∃ more, renderPieces opened (before ++ texts) = .ok (more, tags) := by
  induction before generalizing opened tags shown with
  | nil =>
      obtain ⟨rfl, rfl⟩ := Prod.mk.inj (Except.ok.inj hb)
      induction texts with
      | nil => exact ⟨[], rfl⟩
      | cons piece rest ih =>
          obtain ⟨⟨text, rfl⟩, hrest⟩ := List.forall_mem_cons.mp h
          obtain ⟨more, hr⟩ := ih hrest
          exact ⟨_, Except.bind_of_ok hr⟩
  | cons piece rest ih =>
      cases piece with
      | text text =>
          obtain ⟨⟨inner, found⟩, hr, hb⟩ := Except.bind_eq_ok hb
          obtain ⟨-, rfl⟩ := Prod.mk.inj (Except.ok.inj hb)
          obtain ⟨more, hm⟩ := ih hr
          exact ⟨_, Except.bind_of_ok hm⟩
      | tag tag position =>
          rw [List.cons_append]
          by_cases hn : ∃ name, tag.name = '/' :: name
          · obtain ⟨name, hn⟩ := hn
            rw [renderPieces_closing hn] at hb ⊢
            obtain ⟨found, hf, hb⟩ := Except.bind_eq_ok hb
            obtain ⟨⟨⟩, hc, hb⟩ := Except.bind_eq_ok hb
            obtain ⟨more, hm⟩ := ih hb
            exact ⟨more, by rw [Except.bind_of_ok hf, Except.bind_of_ok hc, hm]⟩
          · have hn : ∀ name, tag.name ≠ '/' :: name := fun name he => hn ⟨name, he⟩
            rw [renderPieces_opening hn] at hb ⊢
            obtain ⟨name, hname, hb⟩ := Except.bind_eq_ok hb
            obtain ⟨⟨inner, found⟩, hr, hb⟩ := Except.map_eq_ok hb
            obtain ⟨-, rfl⟩ := Prod.mk.inj hb
            obtain ⟨more, hm⟩ := ih hr
            exact ⟨more, by rw [Except.bind_of_ok hname, hm]; rfl⟩

/-! ## Leads -/

/-- A lead has its tags read before the text that follows it, and can be shown. -/
def Leads (lead : String) : Prop :=
  ∃ before shown tags, (∀ text, ∃ fuel position reversed,
      pieces (lead.toList ++ text) = before ++ piecesFrom fuel position reversed text)
    ∧ (renderPieces [] before).toOption = some (shown, tags)
    ∧ tags.forM OpenTag.checkLook = .ok ()

/-- After a lead, any text without tags can be shown. -/
theorem Leads.exists_plain {lead text : String} (hl : Leads lead) (h : '[' ∉ text.toList) :
    ∃ shown, plain (lead ++ text) = .ok shown := by
  obtain ⟨before, shown, tags, hp, hb, ht⟩ := hl
  unfold plain
  dsimp only
  split
  · obtain ⟨fuel, position, reversed, hp⟩ := hp text.toList
    obtain ⟨more, hr⟩ := renderPieces_append (isText_piecesFrom h fuel position reversed)
      (Except.toOption_eq_some.mp hb)
    have hrender : render (lead ++ text).toList = .ok more := by
      rw [render, String.toList_append, hp, Except.bind_of_ok hr]
      exact Except.bind_of_ok ht
    exact ⟨_, by rw [hrender]; rfl⟩
  · exact ⟨_, rfl⟩

/-- The leads of the messages of a command. -/
theorem leads_usual : Leads "[green]✓[/green] " ∧ Leads "[dim]Leaf types:[/dim] "
    ∧ Leads "[dim]Entity patterns:[/dim] " := by
  refine ⟨⟨[.tag ⟨['g', 'r', 'e', 'e', 'n'], none⟩ 0, .text ['✓'],
      .tag ⟨['/', 'g', 'r', 'e', 'e', 'n'], none⟩ 8], ['✓'], [⟨"green", none⟩],
      fun _ => ⟨_, _, _, rfl⟩, ?_, rfl⟩,
    ⟨[.tag ⟨['d', 'i', 'm'], none⟩ 0, .text "Leaf types:".toList,
      .tag ⟨['/', 'd', 'i', 'm'], none⟩ 16], "Leaf types:".toList, [⟨"dim", none⟩],
      fun _ => ⟨_, _, _, rfl⟩, ?_, rfl⟩,
    ⟨[.tag ⟨['d', 'i', 'm'], none⟩ 0, .text "Entity patterns:".toList,
      .tag ⟨['/', 'd', 'i', 'm'], none⟩ 21], "Entity patterns:".toList, [⟨"dim", none⟩],
      fun _ => ⟨_, _, _, rfl⟩, ?_, rfl⟩⟩
  · decide +kernel
  · decide +kernel
  · decide +kernel

/-! ## Messages -/

section Messages

theorem exists_display (message : Message) (h : ∃ shown, plain message.markup = .ok shown)
    (limit : Nat) : ∃ text, message.display limit = .ok text := by
  obtain ⟨shown, hs⟩ := h
  cases message <;> exact ⟨_, by simp [Message.display, hs]; rfl⟩

theorem not_mem_toString (n : Nat) : '[' ∉ (toString n).toList := by
  intro hm
  have hm : '[' ∈ Nat.toDigits 10 n := by simpa [Nat.repr] using hm
  have hdigit : Char.isDigit '[' := Nat.isDigit_of_mem_toDigits (by decide) (by decide) hm
  exact absurd hdigit (by decide)

/-- A success that quotes no tags can be told. -/
theorem exists_display_success {text : String} (h : '[' ∉ text.toList) (limit : Nat) :
    ∃ shown, (Message.success text).display limit = .ok shown :=
  exists_display (.success text) (leads_usual.1.exists_plain h) limit

/-- The other messages of a command can always be told. -/
theorem exists_display_leafTypes (n limit : Nat) :
    ∃ text, (Message.keyValue "Leaf types" (toString n) usualStyle).display limit = .ok text := by
  have hlead : "[" ++ usualStyle ++ "]" ++ "Leaf types" ++ ":[/" ++ usualStyle ++ "] " =
      "[dim]Leaf types:[/dim] " := by decide
  have hplain := leads_usual.2.1.exists_plain (not_mem_toString n)
  rw [← hlead] at hplain
  exact exists_display (.keyValue _ _ _) hplain limit

theorem exists_display_patterns (n limit : Nat) : ∃ text,
    (Message.keyValue "Entity patterns" (toString n) usualStyle).display limit = .ok text := by
  have hlead : "[" ++ usualStyle ++ "]" ++ "Entity patterns" ++ ":[/" ++ usualStyle ++ "] " =
      "[dim]Entity patterns:[/dim] " := by decide
  have hplain := leads_usual.2.2.exists_plain (not_mem_toString n)
  rw [← hlead] at hplain
  exact exists_display (.keyValue _ _ _) hplain limit

theorem exists_display_lenient (limit : Nat) :
    ∃ text, (Message.hint "Composed without strict validation").display limit = .ok text := by
  have hplain : (plain (Message.hint "Composed without strict validation").markup).toOption.isSome := by
    decide
  obtain ⟨shown, hs⟩ := Option.isSome_iff_exists.mp hplain
  exact exists_display (.hint _) ⟨shown, Except.toOption_eq_some.mp hs⟩ limit

end Messages

/-! ## Devices -/

namespace Device

variable {device : Device} {message : Message} {messages rest : List Message} {shown : String}
  {fault : DisplayFault} {cause : MarkupFault}

theorem displayAll_cons_eq_ok (h : device.displayAll (message :: rest) = .ok shown) :
    ∃ first others, device.display message = .ok first ∧ device.displayAll rest = .ok others
      ∧ shown = first ++ others := by
  obtain ⟨first, hf, h⟩ := Except.bind_eq_ok h
  obtain ⟨others, ho, h⟩ := Except.bind_eq_ok h
  exact ⟨first, others, hf, ho, (Except.ok.inj h).symm⟩

theorem displayAll_cons_eq_error (h : device.displayAll (message :: rest) = .error fault) :
    device.display message = .error fault
      ∨ ∃ first, device.display message = .ok first ∧ device.displayAll rest = .error fault := by
  refine (Except.bind_eq_error h).imp_right fun ⟨first, hf, h⟩ => ⟨first, hf, ?_⟩
  rcases Except.bind_eq_error h with h | ⟨others, -, h⟩
  · exact h
  · cases h

/-- Messages fail to be shown by one of them. -/
theorem exists_display_eq_error (h : device.displayAll messages = .error fault) :
    ∃ message ∈ messages, device.display message = .error fault := by
  induction messages with
  | nil => cases h
  | cons message rest ih =>
      rcases displayAll_cons_eq_error h with hf | ⟨-, -, ho⟩
      · exact ⟨message, List.mem_cons_self, hf⟩
      · obtain ⟨faulty, hm, hf⟩ := ih ho
        exact ⟨faulty, List.mem_cons_of_mem _ hm, hf⟩

theorem display_eq_markup (h : device.display message = .error (.markup cause)) :
    message.display device.width = .error cause := by
  rcases Except.bind_eq_error h with hm | ⟨text, -, h⟩
  · obtain ⟨fault, hf, he⟩ := Except.mapError_eq_error hm
    cases he
    exact hf
  · dsimp only at h
    split at h <;> cases h

/-- A device that cannot show a message lacks what shows some text. -/
theorem canShow_of_display (h : device.display message = .error .unencodable) :
    ∃ text, device.canShow text = false := by
  rcases Except.bind_eq_error h with hm | ⟨text, -, h⟩
  · obtain ⟨cause, -, he⟩ := Except.mapError_eq_error hm
    cases he
  · dsimp only at h
    split at h
    · cases h
    · rename_i hc
      exact ⟨_, Bool.eq_false_iff.mpr hc⟩

/-- A text that can be shown is shown in its looks. -/
theorem display_eq_ok (h : device.display message = .ok shown) :
    ∃ text, message.display device.width = .ok text ∧ shown = device.dress message text
      ∧ device.canShow shown := by
  obtain ⟨text, ht, h⟩ := Except.bind_eq_ok h
  dsimp only at h
  split at h
  · rename_i hc
    cases h
    exact ⟨text, Except.mapError_eq_ok ht, rfl, hc⟩
  · cases h

end Device

end SdlAssembly.Console
