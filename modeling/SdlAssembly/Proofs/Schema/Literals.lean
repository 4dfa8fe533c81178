import Mathlib.Data.List.Nodup
import SdlAssembly.Proofs.Number.Numerals
import SdlAssembly.Proofs.Outcomes
import SdlAssembly.Proofs.Schema.Legible
import SdlAssembly.Proofs.Schema.Reprinting
import SdlAssembly.Proofs.Tree.Printing

/-!
# Defaults that are written

A constant that fits a type is written under that type as a literal that can be read, if it is
written at all.
-/

namespace SdlAssembly.Schemas

open Grammar Number Lexer

/-! ## Spelt literals -/

/-- A literal that is not a number is spelt as it is. -/
theorem spelt_of_proper {v : Value} (h : v.Proper true) (hs : spelling v = v) : Spelt v :=
  ⟨hs.symm ▸ h, fun _ => hs.symm ▸ v.spells h⟩

/-- The value of a written number. -/
def numeralValue (m : Numeral) : Value :=
  if m.fraction = [] ∧ m.exponent = [] then .int (String.ofList m.text)
  else .float (String.ofList m.text)

theorem lexemes_numeralValue (m : Numeral) : (numeralValue m).lexemes = [m.lexeme] := by
  unfold numeralValue Numeral.lexeme
  split <;> rfl

theorem proper_numeralValue (m : Numeral) : (numeralValue m).Proper true := by
  have hl : (numeralValue m).lexemes = [m.lexeme] := lexemes_numeralValue m
  unfold numeralValue at hl ⊢
  split
  · rename_i h
    rw [if_pos h] at hl
    exact ⟨m, (List.cons.inj hl).1.symm⟩
  · rename_i h
    rw [if_neg h] at hl
    exact ⟨m, (List.cons.inj hl).1.symm⟩

theorem numeralValue_integer {sign whole : List Char} (hs : IsSign sign) (hw : IsWhole whole) :
    numeralValue (integer hs hw) = .int (String.ofList (sign ++ whole)) := by
  rw [numeralValue, if_pos ⟨rfl, rfl⟩, text_integer]

/-- A number is read by its marks. -/
theorem numberOf_text (m : Numeral) : numberOf (String.ofList m.text) = numeralValue m := by
  have hsign : ∀ c ∈ m.sign, (c == '.' || c == 'e' || c == 'E') = false := by
    rcases m.isSign with hs | hs <;> simp [hs]
  have hwhole : ∀ c ∈ m.whole, (c == '.' || c == 'e' || c == 'E') = false := by
    intro c hc
    have hmark := mantissa_marks m c (List.mem_append_left _ hc)
    have hpoint : c ≠ '.' := fun he => digits_no_point m.isWhole.1 (he ▸ hc)
    simpa [hpoint] using hmark
  unfold numberOf numeralValue
  rw [String.toList_ofList, Numeral.text, List.any_append, List.any_append, List.any_append,
    List.any_eq_false.mpr fun c hc => by simp [hsign c hc],
    List.any_eq_false.mpr fun c hc => by simp [hwhole c hc]]
  rcases m.isFraction with hf | ⟨ds, -, hf⟩
  · rcases m.isExponent with he | ⟨mark, sign, ds, hm, -, -, he⟩
    · simp [hf, he]
    · rcases hm with rfl | rfl <;> simp [hf, he]
  · simp [hf]

theorem withoutLineFeed_integer {text : String} {cs : List Char} (h : IsInteger cs)
    (ht : text = String.ofList cs ∨ text = String.ofList cs ++ "\n") :
    withoutLineFeed text = String.ofList cs := by
  rcases ht with rfl | rfl
  · obtain ⟨sign, whole, hs, hw, rfl⟩ := h
    have hlast : (sign ++ whole).getLast? ≠ some '\n' := by
      intro he
      rw [List.getLast?_append, Option.or_eq_some_iff, List.getLast?_eq_none_iff] at he
      have hmem := (he.resolve_right fun hn => hw.1.1 hn.1)
      exact absurd (hw.1.2 _ (List.mem_of_getLast? hmem)) (by decide)
    unfold withoutLineFeed
    rw [String.toList_ofList, if_neg (by simpa using hlast)]
  · have hlast : (String.ofList cs ++ "\n").toList = cs ++ ['\n'] := by
      rw [String.toList_append, String.toList_ofList]
      rfl
    unfold withoutLineFeed
    rw [hlast, List.getLast?_concat, List.dropLast_concat, if_pos (beq_self_eq_true _)]

/-- A whole number is spelt, also before a line feed. -/
theorem spelt_integer {text : String} {cs : List Char} (h : IsInteger cs)
    (ht : text = String.ofList cs ∨ text = String.ofList cs ++ "\n") : Spelt (.int text) := by
  have hspelling : spelling (.int text) = .int (String.ofList cs) :=
    congrArg Value.int (withoutLineFeed_integer h ht)
  obtain ⟨sign, whole, hs, hw, rfl⟩ := h
  rw [← numeralValue_integer hs hw] at hspelling
  refine ⟨hspelling ▸ proper_numeralValue _, fun width => ?_⟩
  rw [hspelling, lexemes_numeralValue]
  have hspells : Spells width (String.ofList (sign ++ whole)) [(integer hs hw).lexeme] :=
    .numeral (by rw [String.toList_ofList, text_integer])
  rcases ht with rfl | rfl
  · exact hspells
  · exact (hspells.append_closed isSeparator_newline).spells

theorem spelt_numeral (m : Numeral) : Spelt (.float (String.ofList m.text)) := by
  have hspelling : spelling (.float (String.ofList m.text)) = numeralValue m := numberOf_text m
  refine ⟨hspelling ▸ proper_numeralValue m, fun width => ?_⟩
  rw [hspelling, lexemes_numeralValue]
  exact .numeral String.toList_ofList

theorem spelt_list {items : List Value} (h : ∀ v ∈ items, Spelt v) : Spelt (.list items) := by
  constructor
  · rw [spelling, Value.Proper, Value.properItems_iff, itemSpellings_eq]
    simpa using fun v hv => (h v hv).proper
  · intro width
    rw [Value.print, spelling, Value.lexemes, printItems_eq, Value.itemLexemes_eq, itemSpellings_eq,
      List.flatMap_map]
    exact spells_inside (.of_marks rfl) ⟨.of_marks rfl, by decide, by decide⟩
      fun v hv => (h v hv).spells width

theorem spelt_object {fields : List (String × Value)}
    (h : ∀ f ∈ fields, IsName f.1 ∧ Spelt f.2) : Spelt (.object fields) := by
  constructor
  · rw [spelling, Value.Proper, Value.properFields_iff, fieldSpellings_eq]
    intro f hf
    obtain ⟨field, hm, rfl⟩ := List.mem_map.mp hf
    exact ⟨(h field hm).1, (h field hm).2.proper⟩
  · intro width
    rw [Value.print, spelling, Value.lexemes, printFields_eq, Value.fieldLexemes_eq,
      fieldSpellings_eq, List.flatMap_map]
    exact spells_inside (.of_marks rfl) ⟨.of_marks rfl, by decide, by decide⟩
      fun field hm => spells_labelled (h field hm).1 ((h field hm).2.spells width)

/-! ## Leaves -/

theorem spelt_int (n : Int) : Spelt (.int (toString n)) :=
  spelt_integer (isInteger_int n) (.inl String.ofList_toList.symm)

/-- The literal of a number is its text, without a fraction of zero. -/
theorem floatLiteral_eq (value : Binary64) : floatLiteral value = .float value.text
    ∨ ∃ cs, value.text.toList = cs ++ ['.', '0'] ∧ floatLiteral value = .float (String.ofList cs) := by
  unfold floatLiteral
  dsimp only
  split
  · rename_i he
    rw [← String.endsWith_toSlice, String.Slice.endsWith_string_iff, String.copy_toSlice] at he
    obtain ⟨cs, hcs⟩ := he
    have htake : value.text.toList.take (value.text.length - 2) = cs := by
      rw [← String.length_toList, ← hcs, List.length_append]
      exact List.take_left
    exact .inr ⟨cs, hcs.symm, by rw [htake]⟩
  · exact .inl rfl

theorem spelt_floatLiteral {value : Binary64} (h : value.isFinite) : Spelt (floatLiteral value) := by
  have hn := isNumeral_text h
  rcases floatLiteral_eq value with he | ⟨cs, hcs, he⟩
  · obtain ⟨m, hm⟩ := hn
    rw [he, ← String.ofList_toList (s := value.text), ← hm]
    exact spelt_numeral m
  · rw [hcs] at hn
    obtain ⟨sign, whole, hs, hw, rfl⟩ := hn.without_zero
    rw [he, ← text_integer hs hw]
    exact spelt_numeral _

/-- A text that looks like a whole number is one, before at most one line feed. -/
theorem isInteger_of_looksWhole {text : String} (h : looksWhole text) :
    ∃ cs, IsInteger cs ∧ (text = String.ofList cs ∨ text = String.ofList cs ++ "\n") := by
  unfold looksWhole at h
  dsimp only at h
  generalize hcs : (if text.toList.getLast? == some '\n' then text.toList.dropLast
    else text.toList) = cs at h
  generalize hdigits : (if cs.head? == some '-' then cs.drop 1 else cs) = digits at h
  have hwhole : IsWhole digits := by
    split at h
    · cases h
    · exact isWhole_digit (by decide)
    · simp only [Bool.and_eq_true, bne_iff_ne, List.all_eq_true] at h
      refine ⟨⟨by simp, fun d hd => ?_⟩, fun hh => (h.1 (by simpa using hh)).elim⟩
      simpa [isDigit] using h.2 d hd
  have hinteger : IsInteger cs := by
    split at hdigits
    · rename_i hm
      obtain ⟨rest, rfl⟩ := List.head?_eq_some_iff.mp (eq_of_beq hm)
      rw [List.drop_one, List.tail_cons] at hdigits
      rw [hdigits]
      exact ⟨['-'], digits, .inr rfl, hwhole, rfl⟩
    · rw [hdigits]
      exact ⟨[], digits, .inl rfl, hwhole, rfl⟩
  refine ⟨cs, hinteger, ?_⟩
  split at hcs
  · rename_i hl
    right
    obtain ⟨rest, hrest⟩ := List.getLast?_eq_some_iff.mp (eq_of_beq hl)
    rw [hrest, List.dropLast_concat] at hcs
    rw [← hcs, ← String.toList_inj, hrest, String.toList_append, String.toList_ofList]
    rfl
  · exact .inl (by rw [← hcs, String.ofList_toList])

theorem spelt_looksWhole {text : String} (h : looksWhole text) : Spelt (.int text) := by
  obtain ⟨cs, hi, ht⟩ := isInteger_of_looksWhole h
  exact spelt_integer hi ht

/-- A constant of anything but an enum is spelt. -/
theorem spelt_writeLeaf {t : NamedType} {c : Constant} {literal : Value} (ht : t.isEnum = false)
    (h : writeLeaf t c = .ok literal) : Spelt literal := by
  cases c with
  | null =>
      cases h
      exact spelt_of_proper trivial rfl
  | boolean value =>
      cases h
      exact spelt_of_proper trivial rfl
  | int value =>
      cases h
      exact spelt_int value
  | float value =>
      rw [writeLeaf] at h
      split at h
      · rename_i hf
        cases h
        exact spelt_floatLiteral hf
      · split at h <;> cases h
  | string text =>
      rw [writeLeaf, if_neg (by simp [ht])] at h
      cases h
      split
      · rename_i hw
        exact spelt_looksWhole (Bool.and_eq_true_iff.mp hw).2
      · exact spelt_of_proper trivial rfl
  | list items => cases h
  | object fields => cases h

/-! ## Writing under a type -/

section Writing

variable {type? : String → Option NamedType} {type item : TypeRef} {c : Constant}

theorem writes_null (type : TypeRef) : Writes type? .null type := by
  intro literal h
  rw [writeConstant] at h
  split at h <;> cases h
  exact spelt_of_proper trivial rfl

theorem spelt_writeItems {cs : List Constant} {literals : List Value}
    (hc : ∀ c ∈ cs, Writes type? c item) (h : writeItems type? cs item = .ok literals) :
    ∀ literal ∈ literals, Spelt literal := by
  induction cs generalizing literals with
  | nil =>
      cases h
      simp
  | cons c cs ih =>
      obtain ⟨written, hw, h⟩ := Except.bind_eq_ok h
      have ih := fun literals => @ih literals fun c hm => hc c (List.mem_cons_of_mem _ hm)
      cases written with
      | none => exact ih literals h
      | some literal =>
          obtain ⟨rest, hr, h⟩ := Except.bind_eq_ok h
          cases h
          exact List.forall_mem_cons.mpr ⟨hc c (by simp) literal hw, ih rest hr⟩

theorem writes_list {cs : List Constant} (hn : type.nullable = .list item)
    (hc : ∀ c ∈ cs, Writes type? c item) : Writes type? (.list cs) type := by
  intro literal h
  rw [writeConstant, hn] at h
  obtain ⟨literals, hl, h⟩ := Except.map_eq_ok h
  cases h
  exact spelt_list (spelt_writeItems hc hl)

theorem spelt_writtenFields {write? : InputField → Except Unwritable (Option Value)}
    {fields : List InputField} {written : List (String × Value)}
    (hf : ∀ f ∈ fields, IsName f.name ∧ ∀ v, write? f = .ok (some v) → Spelt v)
    (h : writtenFields write? fields = .ok written) :
    ∀ f ∈ written, IsName f.1 ∧ Spelt f.2 := by
  induction fields generalizing written with
  | nil =>
      cases h
      simp
  | cons field fields ih =>
      obtain ⟨value, hv, h⟩ := Except.bind_eq_ok h
      have ih := fun written => @ih written fun f hm => hf f (List.mem_cons_of_mem _ hm)
      cases value with
      | none => exact ih written h
      | some value =>
          obtain ⟨rest, hr, h⟩ := Except.bind_eq_ok h
          cases h
          obtain ⟨hn, hs⟩ := hf field (by simp)
          exact List.forall_mem_cons.mpr ⟨⟨hn, hs value hv⟩, ih rest hr⟩

/-- A constant under a type that is no input object, and no list if the constant is one. -/
theorem writes_leaf (hl : ∀ cs, c = .list cs → ∀ item, type.nullable ≠ .list item)
    (h : ∀ t ∈ type? type.core, t.isInputObject = false
      ∧ ∀ literal, writeLeaf t c = .ok literal → Spelt literal) : Writes type? c type := by
  intro literal hw
  have hatom {t : NamedType} (ht : type? type.core = some t)
      (hw : (if t.isInputObject then .ok none else (writeLeaf t c).map some) =
        Except.ok (some literal)) : Spelt literal := by
    obtain ⟨hi, hs⟩ := h t ht
    rw [if_neg (by simp [hi])] at hw
    obtain ⟨written, hwritten, he⟩ := Except.map_eq_ok hw
    cases he
    exact hs literal hwritten
  cases c with
  | null => exact writes_null type literal hw
  | list cs =>
      rw [writeConstant] at hw
      split at hw
      · rename_i item hn
        exact (hl cs rfl item hn).elim
      · rw [core_nullable] at hw
        split at hw
        · cases hw
        · rename_i ht
          exact hatom ht hw
  | object fields =>
      rw [writeConstant] at hw
      split at hw
      · cases hw
      · rename_i t ht
        split at hw
        · rename_i hshape
          have hi := (h t ht).1
          rw [NamedType.isInputObject, hshape] at hi
          cases hi
        · cases hw
  | boolean | int | float | string =>
      unfold writeConstant at hw
      split at hw
      · cases hw
      · rename_i ht
        exact hatom ht hw

theorem inLists_list (n : Nat) (c : Constant) : inLists n (.list [c]) = .list [inLists n c] := by
  induction n generalizing c with
  | zero => rfl
  | succ n ih => exact ih (.list [c])

/-- The field of an object is written if the value under its name can be. -/
theorem spelt_writeField {given : List (String × Constant)} {name : String} {literal : Value}
    (h : ∀ p ∈ given, p.1 = name → Writes type? p.2 type)
    (hw : writeField type? given name type = .ok (some literal)) : Spelt literal := by
  induction given with
  | nil => cases hw
  | cons pair given ih =>
      obtain ⟨key, value⟩ := pair
      obtain ⟨hp, h⟩ := List.forall_mem_cons.mp h
      rw [writeField] at hw
      split at hw
      · rename_i hk
        exact hp (eq_of_beq hk) literal hw
      · exact ih h hw

/-- An object under an input object, if its values can be written under the fields' types. -/
theorem writes_object {given : List (String × Constant)} (h : ∀ t ∈ type? type.core,
    ∀ fields oneOf, t.shape = .inputObject fields oneOf → ∀ field ∈ fields, IsName field.name
      ∧ ∀ p ∈ given, p.1 = field.name → Writes type? p.2 field.type) :
    Writes type? (.object given) type := by
  intro literal hw
  rw [writeConstant] at hw
  split at hw
  · cases hw
  · rename_i t ht
    split at hw
    · rename_i fields oneOf hshape
      obtain ⟨written, hwritten, hw⟩ := Except.bind_eq_ok hw
      cases hw
      refine spelt_object (spelt_writtenFields (fun field hf => ?_) hwritten)
      obtain ⟨hn, hgiven⟩ := h t ht fields oneOf hshape field hf
      exact ⟨hn, fun v hv => spelt_writeField hgiven hv⟩
    · cases hw

end Writing

/-! ## Constants that fit -/

section Fitting

variable {type? : String → Option NamedType} {readable : String → Prop} {type : TypeRef}
  {c : Constant} {t : NamedType} {literal written : Value}

theorem leafLiteral_enum {values : List EnumValue} (ht : t.shape = .enum values)
    (h : leafLiteral t literal = some c) :
    ∃ value ∈ values, literal = .enum value.name ∧ c = .string value.name := by
  unfold leafLiteral at h
  rw [ht] at h
  dsimp only at h
  split at h
  · split at h
    · rename_i hv
      obtain ⟨value, hm, hn⟩ := List.any_eq_true.mp hv
      obtain rfl := eq_of_beq hn
      cases h
      exact ⟨value, hm, rfl, rfl⟩
    · cases h
  · cases h

theorem isInputObject_of_isLeaf (h : t.isLeaf) : t.isInputObject = false := by
  unfold NamedType.isLeaf at h
  unfold NamedType.isInputObject
  cases hs : t.shape <;> simp [hs] at h ⊢

theorem spelt_leaf (hp : literal.Proper true) (h : leafLiteral t literal = some c)
    (hw : writeLeaf t c = .ok written) : Spelt written := by
  cases hs : t.shape with
  | enum values =>
      obtain ⟨value, -, rfl, rfl⟩ := leafLiteral_enum hs h
      rw [writeLeaf, NamedType.isEnum, hs] at hw
      cases hw
      exact spelt_of_proper hp rfl
  | _ => exact spelt_writeLeaf (by rw [NamedType.isEnum, hs]) hw

theorem mem_givenFields {fields : List InputField} {value? : InputField → Option Constant}
    {p : String × Constant} (h : p ∈ givenFields fields value?) :
    ∃ f ∈ fields, p.1 = f.name ∧ value? f = some p.2 := by
  obtain ⟨f, hf, hp⟩ := List.mem_filterMap.mp h
  obtain ⟨c, hc, rfl⟩ := Option.map_eq_some_iff.mp hp
  exact ⟨f, hf, rfl, hc⟩

/-- What fits a type can be written under it. -/
theorem writes_fits (h : Fits type? readable c type) : Writes type? c type := by
  induction h with
  | null => exact writes_null _
  | list hl _ ih => exact writes_list hl ih
  | leaf hk hleaf hp hread _ hnl =>
      refine writes_leaf (fun _ _ => hnl) fun t ht => ?_
      cases hk.symm.trans ht
      exact ⟨isInputObject_of_isLeaf hleaf, fun written hw => spelt_leaf hp hread hw⟩
  | object hk hs _ hnames hd _ _ _ _ ih =>
      refine writes_object fun t ht fields oneOf hshape field hf => ?_
      cases hk.symm.trans ht
      cases hs.symm.trans hshape
      refine ⟨hnames field hf, fun p hp he => ?_⟩
      obtain ⟨f, hm, hn, hv⟩ := mem_givenFields hp
      obtain rfl := List.inj_on_of_nodup_map hd hf hm (he.symm.trans hn)
      exact ih field hf p.2 hv

end Fitting

end SdlAssembly.Schemas
