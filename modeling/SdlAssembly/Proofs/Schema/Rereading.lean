import SdlAssembly.Proofs.Number.ReadBack
import SdlAssembly.Proofs.Schema.Defaults
import SdlAssembly.Proofs.Schema.Literals

/-!
# Constants that are read back

A constant that fits its type is written as a literal that is read as a constant, which is written in
the same way unless a scalar loses a part of it. The constant itself may change: under a scalar that
is not built in, a floating point number without a fraction comes back as a whole number.
-/

namespace SdlAssembly.Schemas

open Grammar Number Binary64 Lexer

/-! ## Numbers -/

section Numbers

variable {text : String} {n : Int}

theorem isInteger_of_proper (h : (Value.int text).Proper true) : IsInteger text.toList := by
  obtain ⟨m, hm⟩ := h
  unfold Numeral.lexeme at hm
  split at hm
  · rename_i hparts
    cases hm
    exact ⟨m.sign, m.whole, m.isSign, m.isWhole, by simp [Numeral.text, hparts]⟩
  · cases hm

/-- A whole number that is not too long is no longer when it is written again. -/
theorem boundedInt?_toString (h : IsInteger text.toList) (hn : boundedInt? text = some n) :
    boundedInt? (toString n) = some n := by
  obtain ⟨sign, whole, hs, hw, ht⟩ := h
  obtain rfl : text = String.ofList (sign ++ whole) := by rw [← ht, String.ofList_toList]
  have hread : n = readInt (String.ofList (sign ++ whole)) := by
    unfold boundedInt? at hn
    split at hn
    · exact (Option.some.inj hn).symm
    · cases hn
  by_cases hz : sign = [] ∨ whole ≠ ['0']
  · rw [hread, toString_readInt hs hw hz, hn, hread]
  · obtain ⟨hsign, rfl⟩ : sign ≠ [] ∧ whole = ['0'] := by simpa using hz
    obtain rfl := hs.resolve_left hsign
    rw [hread]
    decide

theorem boundedInt?_short {sign whole : List Char} (hs : IsSign sign)
    (h : whole.length ≤ positionalBelow.toNat) :
    boundedInt? (String.ofList (sign ++ whole)) =
      some (readInt (String.ofList (sign ++ whole))) := by
  have hsign : sign.filter Char.isDigit = [] := by rcases hs with rfl | rfl <;> rfl
  have hshort : ((sign ++ whole).filter Char.isDigit).length ≤ Written.mostDigits := by
    rw [List.filter_append, hsign, List.nil_append]
    exact (List.length_filter_le _ _).trans (h.trans (by decide))
  rw [boundedInt?, String.toList_ofList, if_pos hshort]

theorem isNormal_of_proper {literal : Value} {negative : Bool} {m : Nat} {e : Int}
    (hp : literal.Proper true) (hl : literal = .int text ∨ literal = .float text)
    (hr : readFloat text = .finite negative m e) : IsNormal m e := by
  obtain ⟨n, hn⟩ : ∃ n : Numeral, String.ofList n.text = text := by
    rcases hl with rfl | rfl
    all_goals
      obtain ⟨n, hn⟩ := hp
      unfold Numeral.lexeme at hn
      split at hn <;> cases hn
      exact ⟨n, rfl⟩
  rw [← hn, readFloat_numeral] at hr
  exact ofDecimal_isNormal hr

/-- The literal of a number is a numeral that tells it. -/
theorem exists_floatLiteral {m : Nat} {e : Int} (h : IsNormal m e) (negative : Bool) :
    ∃ n : Numeral, floatLiteral (.finite negative m e) = .float (String.ofList n.text)
      ∧ n.whole.length ≤ positionalBelow.toNat ∧ Means n (.finite negative m e) := by
  obtain ⟨n, ht, hshort, hmeans⟩ := exists_means h negative
  rcases floatLiteral_eq (.finite negative m e) with he | ⟨cs, hcs, he⟩
  · exact ⟨n, by rw [he, ht, String.ofList_toList], hshort, hmeans⟩
  · obtain ⟨n', rfl, hwhole, -, -, hmeans⟩ := hmeans.without_zero (ht.trans hcs)
    exact ⟨n', he, hwhole ▸ hshort, hmeans⟩

end Numbers

/-! ## Leaves -/

/-- Whether what is written of a constant under a scalar gives it back. A negative zero loses its
sign under a scalar that is not built in, and a whole number loses its line feed under `ID`. -/
def NamedType.keeps (t : NamedType) : Constant → Bool
  | .float value => isBuiltinScalar t.name || (floatLiteral value).print != "-0"
  | .string text => !(t.name == "ID" && looksWhole text && text.toList.getLast? == some '\n')
  | _ => true

section Leaves

variable {t : NamedType} {literal written : Value} {c : Constant}

theorem finite_of_writeLeaf {value : Binary64} (hw : writeLeaf t (.float value) = .ok written) :
    (∃ negative m e, value = .finite negative m e) ∧ written = floatLiteral value := by
  rw [writeLeaf] at hw
  split at hw
  · rename_i hf
    cases hw
    cases value with
    | finite negative m e => exact ⟨⟨negative, m, e, rfl⟩, rfl⟩
    | infinite negative => cases hf
    | nan => cases hf
  · split at hw <;> cases hw

theorem spelling_int (n : Int) : spelling (.int (toString n)) = .int (toString n) := by
  have h := withoutLineFeed_integer (isInteger_int n) (.inl (String.ofList_toList.symm))
  rw [String.ofList_toList] at h
  exact congrArg Value.int h

theorem spelling_of_last {text : String} (hl : (text.toList.getLast? == some '\n') = false) :
    spelling (.int text) = .int text := by
  rw [spelling, withoutLineFeed, hl]
  rfl

/-- A constant of a built-in scalar is read back as it was. -/
theorem builtinLiteral_spelling (hp : literal.Proper true) (ht : t.isEnum = false)
    (hr : builtinLiteral t.name literal = some c) (hk : t.keeps c)
    (hw : writeLeaf t c = .ok written) : builtinLiteral t.name (spelling written) = some c := by
  have hfloat : ∀ {text : String}, t.name = "Float" → literal = .int text ∨ literal = .float text →
      c = .float (readFloat text) → builtinLiteral t.name (spelling written) = some c := by
    rintro text hn hl rfl
    obtain ⟨⟨negative, m, e, hx⟩, rfl⟩ := finite_of_writeLeaf hw
    have hnormal := isNormal_of_proper hp hl hx
    obtain ⟨n, hf, -, hmeans⟩ := exists_floatLiteral hnormal negative
    rw [hx, hf, spelling, numberOf_text, hn]
    unfold numeralValue
    split <;> exact congrArg (some ∘ Constant.float) hmeans.readFloat
  have hid : ∀ {text : String}, t.name = "ID" → c = .string text →
      builtinLiteral t.name (spelling written) = some c := by
    rintro text hn rfl
    rw [writeLeaf, ht, hn] at hw
    obtain rfl := Except.ok.inj hw
    by_cases hwhole : looksWhole text
    · have hlast : (text.toList.getLast? == some '\n') = false := by
        simpa [NamedType.keeps, hn, hwhole] using hk
      simp [hwhole, spelling_of_last hlast, hn, builtinLiteral]
    · simp [hwhole, spelling, hn, builtinLiteral]
  unfold builtinLiteral at hr
  split at hr
  · rename_i text hn
    obtain ⟨n, hb, hr⟩ := Option.bind_eq_some_iff.mp hr
    split at hr
    · rename_i hbounds
      cases hr
      cases hw
      rw [hn, spelling_int, builtinLiteral, boundedInt?_toString (isInteger_of_proper hp) hb]
      exact if_pos hbounds
    · cases hr
  · exact hfloat (by assumption) (.inl rfl) (Option.some.inj hr).symm
  · exact hfloat (by assumption) (.inr rfl) (Option.some.inj hr).symm
  · rename_i hn
    cases hr
    rw [writeLeaf, ht, hn] at hw
    obtain rfl := Except.ok.inj hw
    rw [hn]
    rfl
  · rename_i hn
    cases hr
    cases hw
    rw [hn]
    rfl
  · exact hid (by assumption) (Option.some.inj hr).symm
  · exact hid (by assumption) (Option.some.inj hr).symm
  · cases hr

/-- A literal under a scalar or an enum is read as a constant, which is written in the same way if
it is kept. -/
def ReadsBack (t : NamedType) (kept : Prop) (written : Value) : Prop :=
  ∃ c written', leafLiteral t (spelling written) = some c ∧ c ≠ .null
    ∧ writeLeaf t c = .ok written' ∧ (kept → written'.print = written.print)

theorem readsBack_self {kept : Prop} (hr : leafLiteral t (spelling written) = some c)
    (hn : c ≠ .null) (hw : writeLeaf t c = .ok written) : ReadsBack t kept written :=
  ⟨c, written, hr, hn, hw, fun _ => rfl⟩

/-- An identifier that is not kept is read back without its line feed. -/
theorem readsBack_id (hl : leafLiteral t = builtinLiteral t.name) (ht : t.isEnum = false)
    (hk : t.keeps c = false) (hb : isBuiltinScalar t.name) (hw : writeLeaf t c = .ok written) :
    ReadsBack t (t.keeps c) written := by
  cases c with
  | string text =>
      obtain ⟨⟨hn, hwhole⟩, -⟩ : (t.name = "ID" ∧ looksWhole text) ∧ _ := by
        simpa [NamedType.keeps] using hk
      rw [writeLeaf, ht, hn] at hw
      obtain rfl : Value.int text = written := by simpa [hwhole] using Except.ok.inj hw
      refine ⟨.string (withoutLineFeed text), _, ?_, by simp, rfl, fun he => ?_⟩
      · rw [hl, hn]
        rfl
      · rw [hk] at he
        cases he
  | float value => simp [NamedType.keeps, hb] at hk
  | _ => cases hk

/-- A finite number under a scalar that is not built in is read back as a whole number if it is
written as one. -/
theorem readsBack_float (negative : Bool) {m : Nat} {e : Int} (hl : leafLiteral t = untyped)
    (h : IsNormal m e) :
    ReadsBack t ((floatLiteral (.finite negative m e)).print ≠ "-0")
      (floatLiteral (.finite negative m e)) := by
  obtain ⟨n, hf, hshort, hmeans⟩ := exists_floatLiteral h negative
  by_cases hparts : n.fraction = [] ∧ n.exponent = []
  · have htext : n.text = n.sign ++ n.whole := by simp [Numeral.text, hparts]
    refine ⟨.int (readInt (String.ofList n.text)), _, ?_, by simp, rfl, fun hz => ?_⟩
    · rw [hl, hf, spelling, numberOf_text, numeralValue, if_pos hparts, untyped, htext,
        boundedInt?_short n.isSign hshort]
      rfl
    · have hsigned : n.sign = [] ∨ n.whole ≠ ['0'] := by
        by_contra hn
        obtain ⟨hs, hw⟩ : n.sign ≠ [] ∧ n.whole = ['0'] := by simpa using hn
        refine hz ?_
        rw [hf, htext, n.isSign.resolve_left hs, hw]
        rfl
      rw [hf, htext, toString_readInt n.isSign n.isWhole hsigned, Value.print, Value.print]
  · refine readsBack_self (c := .float (.finite negative m e)) ?_ (by simp) rfl
    rw [hl, hf, spelling, numberOf_text, numeralValue, if_neg hparts, untyped, hmeans.readFloat]

theorem readsBack_untyped (hl : leafLiteral t = untyped) (ht : t.isEnum = false)
    (hb : isBuiltinScalar t.name = false) (hp : literal.Proper true)
    (hr : untyped literal = some c) (hn : c ≠ .null) (hw : writeLeaf t c = .ok written) :
    ReadsBack t (t.keeps c) written := by
  have hid : (t.name == "ID") = false := by
    refine beq_eq_false_iff_ne.mpr fun he => ?_
    rw [he] at hb
    cases hb
  have htext : ∀ {text : String}, c = .string text → ReadsBack t (t.keeps c) written := by
    rintro text rfl
    rw [writeLeaf, ht, hid] at hw
    obtain rfl := Except.ok.inj hw
    exact readsBack_self (hl ▸ rfl) hn (by rw [writeLeaf, ht, hid])
  cases literal with
  | «variable» name => cases hr
  | int text =>
      rw [untyped] at hr
      cases hbound : boundedInt? text with
      | none =>
          rw [hbound] at hr
          cases hr
          obtain ⟨⟨negative, m, e, hx⟩, -⟩ := finite_of_writeLeaf hw
          cases hx
      | some n =>
          rw [hbound] at hr
          cases hr
          cases hw
          refine readsBack_self ?_ hn rfl
          rw [hl, spelling_int, untyped, boundedInt?_toString (isInteger_of_proper hp) hbound,
            Option.elim_some]
  | float text =>
      cases hr
      obtain ⟨⟨negative, m, e, hx⟩, rfl⟩ := finite_of_writeLeaf hw
      rw [hx]
      obtain ⟨c, written', hr, hn, hw, hprint⟩ :=
        readsBack_float negative hl (isNormal_of_proper hp (.inr rfl) hx)
      exact ⟨c, written', hr, hn, hw, fun hk => hprint (by simpa [NamedType.keeps, hb] using hk)⟩
  | string text block => exact htext (Option.some.inj hr).symm
  | boolean value =>
      cases hr
      cases hw
      exact readsBack_self (hl ▸ rfl) hn rfl
  | null =>
      cases hr
      exact (hn rfl).elim
  | enum text => exact htext (Option.some.inj hr).symm
  | list items =>
      obtain ⟨read, -, rfl⟩ := Option.map_eq_some_iff.mp hr
      cases hw
  | object fields =>
      obtain ⟨read, -, rfl⟩ := Option.map_eq_some_iff.mp hr
      cases hw

/-- What is written of a constant that was read from a literal is read back. -/
theorem readsBack_leaf (hleaf : t.isLeaf) (hp : literal.Proper true)
    (hr : leafLiteral t literal = some c) (hn : c ≠ .null) (hw : writeLeaf t c = .ok written) :
    ReadsBack t (t.keeps c) written := by
  cases hs : t.shape with
  | enum values =>
      obtain ⟨value, hm, -, rfl⟩ := leafLiteral_enum hs hr
      rw [writeLeaf, NamedType.isEnum, hs] at hw
      obtain rfl := Except.ok.inj hw
      refine readsBack_self (c := .string value.name) ?_ hn (by rw [writeLeaf, NamedType.isEnum, hs])
      have hv : values.any (·.name == value.name) := List.any_eq_true.mpr ⟨value, hm, beq_self_eq_true _⟩
      simp [leafLiteral, hs, spelling, hv]
  | scalar url =>
      have ht : t.isEnum = false := by rw [NamedType.isEnum, hs]
      cases hb : isBuiltinScalar t.name with
      | true =>
          have hl : leafLiteral t = builtinLiteral t.name := by
            funext literal
            rw [leafLiteral, hs]
            exact if_pos hb
          rw [hl] at hr
          cases hk : t.keeps c with
          | true => exact readsBack_self (hl ▸ builtinLiteral_spelling hp ht hr hk hw) hn hw
          | false => exact hk ▸ readsBack_id hl ht hk hb hw
      | false =>
          have hl : leafLiteral t = untyped := by
            funext literal
            rw [leafLiteral, hs]
            exact if_neg (by simp [hb])
          rw [hl] at hr
          exact readsBack_untyped hl ht hb hp hr hn hw
  | object | interface | union | inputObject => simp [NamedType.isLeaf, hs] at hleaf

end Leaves

/-! ## Constants that are kept -/

/-- The types under which a constant is lost, among the input objects around them. -/
def losing (type? : String → Option NamedType) (c : Constant) (name : String) : Option NamedType :=
  (type? name).filter fun t => t.isInputObject || !t.keeps c

/-- No part of a constant stands under a scalar that loses it. -/
def Keeps (type? : String → Option NamedType) (value : Constant) (type : TypeRef) : Prop :=
  ∀ part, ¬LeafOf (losing type? part) part value type

section Keeping

variable {type? : String → Option NamedType} {type item : TypeRef} {t : NamedType}

theorem keeps_items {items : List Constant} (h : Keeps type? (.list items) type)
    (hl : type.nullable = .list item) : ∀ c ∈ items, Keeps type? c item :=
  fun c hc part hp => h part ((leafOf_items hl).mpr ⟨c, hc, hp⟩)

theorem keeps_fields {given : List (String × Constant)} {fields : List InputField} {oneOf : Bool}
    (h : Keeps type? (.object given) type) (ht : type? type.core = some t)
    (hs : t.shape = .inputObject fields oneOf) :
    ∀ f ∈ fields, ∀ c, given.lookup f.name = some c → Keeps type? c f.type := by
  intro f hf c hc part hp
  have hlosing : losing type? part type.core = some t := by
    rw [losing, ht, Option.filter_some, if_pos (by simp [NamedType.isInputObject, hs])]
  exact h part ((leafOf_fields hlosing hs).mpr ⟨f, hf, c, hc, hp⟩)

theorem keeps_leaf {c : Constant} (h : Keeps type? c type) (ht : type? type.core = some t)
    (hi : t.isInputObject = false) (hl : ∀ item, type.nullable ≠ .list item) : t.keeps c := by
  by_contra hk
  have hlosing : losing type? c type.core = some t := by
    rw [losing, ht, Option.filter_some, if_pos (by simp [hk])]
  exact h c (.here hlosing hi fun _ item _ => hl item)

end Keeping

/-! ## Literals read again -/

section Again

variable {ε : Type} (type? : String → Option NamedType) (shape : String → Except ε (InputShape ε))

/-- The literal that is written of a constant. -/
def literalOf (c : Constant) (type : TypeRef) : Value :=
  ((writeConstant type? c type).toOption.join).getD .null

/-- The constant that the literal of a constant is read as. -/
def again (c : Constant) (type : TypeRef) : Constant :=
  ((readLiteral shape (spelling (literalOf type? c type)) type).toOption.join).getD .null

/-- A constant is written as a literal that is read as a constant, which is written in the same way
if no part of it is lost. -/
structure Rereads (c : Constant) (type : TypeRef) : Prop where
  writes : writeConstant type? c type = .ok (some (literalOf type? c type))
  reads : readLiteral shape (spelling (literalOf type? c type)) type =
    .ok (some (again type? shape c type))
  null : again type? shape c type = .null ↔ c = .null
  rewrites : writeConstant type? (again type? shape c type) type =
    .ok (some (literalOf type? (again type? shape c type) type))
  print : Keeps type? c type →
    (literalOf type? (again type? shape c type) type).print = (literalOf type? c type).print

variable {type? shape} {c c' : Constant} {type item : TypeRef} {literal literal' : Value}

theorem literalOf_eq (h : writeConstant type? c type = .ok (some literal)) :
    literalOf type? c type = literal := by
  rw [literalOf, h]
  rfl

theorem Rereads.intro (hw : writeConstant type? c type = .ok (some literal))
    (hr : readLiteral shape (spelling literal) type = .ok (some c')) (hn : c' = .null ↔ c = .null)
    (hw' : writeConstant type? c' type = .ok (some literal'))
    (hp : Keeps type? c type → literal'.print = literal.print) : Rereads type? shape c type := by
  have hagain : again type? shape c type = c' := by
    rw [again, literalOf_eq hw, hr]
    rfl
  constructor
  · rw [hw, literalOf_eq hw]
  · rw [literalOf_eq hw, hr, hagain]
  · rw [hagain, hn]
  · rw [hagain, hw', literalOf_eq hw']
  · rwa [hagain, literalOf_eq hw', literalOf_eq hw]

theorem rereads_null (h : type.isNonNull = false) : Rereads type? shape .null type := by
  have hw : writeConstant type? .null type = .ok (some .null) := by rw [writeConstant, h]; rfl
  exact .intro hw (by rw [spelling, readLiteral, h]; rfl) Iff.rfl hw
    fun _ => rfl

/-! ### Lists -/

theorem writeItems_map {α : Type} {items : List α} {constant : α → Constant} {write : α → Value}
    (h : ∀ a ∈ items, writeConstant type? (constant a) item = .ok (some (write a))) :
    writeItems type? (items.map constant) item = .ok (items.map write) := by
  induction items with
  | nil => rfl
  | cons a items ih =>
      obtain ⟨ha, h⟩ := List.forall_mem_cons.mp h
      rw [List.map_cons, writeItems, ha, ih h]
      rfl

theorem readItems_map {α : Type} {items : List α} {literal : α → Value} {read : α → Constant}
    (h : ∀ a ∈ items, readLiteral shape (literal a) item = .ok (some (read a))) :
    readItems shape (items.map literal) item = .ok (some (items.map read)) := by
  induction items with
  | nil => rfl
  | cons a items ih =>
      obtain ⟨ha, h⟩ := List.forall_mem_cons.mp h
      rw [List.map_cons, readItems, ha, ih h]
      rfl

theorem print_items {items items' : List Value} (h : items.map Value.print = items'.map Value.print) :
    (Value.list items).print = (Value.list items').print := by
  rw [Value.print, Value.print, printItems_eq, printItems_eq, h]

theorem rereads_items {items : List Constant} (hl : type.nullable = .list item)
    (h : ∀ c ∈ items, Rereads type? shape c item) : Rereads type? shape (.list items) type := by
  have hitems : writeItems type? (items.map id) item = .ok _ := writeItems_map fun c hc => (h c hc).writes
  have hread := readItems_map fun c hc => (h c hc).reads
  have hagain := writeItems_map fun c hc => (h c hc).rewrites
  rw [List.map_id] at hitems
  have hwrite : writeConstant type? (.list items) type =
      .ok (some (.list (items.map fun c => literalOf type? c item))) := by
    rw [writeConstant, hl]
    simp only [hitems]
    rfl
  have hread : readLiteral shape (spelling (.list (items.map fun c => literalOf type? c item))) type =
      .ok (some (.list (items.map fun c => again type? shape c item))) := by
    rw [spelling, itemSpellings_eq, List.map_map, readLiteral, hl]
    exact (Except.bind_of_ok hread).trans rfl
  have hrewrite : writeConstant type? (.list (items.map fun c => again type? shape c item)) type =
      .ok (some (.list (items.map fun c => literalOf type? (again type? shape c item) item))) := by
    rw [writeConstant, hl]
    simp only [hagain]
    rfl
  refine .intro hwrite hread (by simp) hrewrite fun hk => print_items ?_
  rw [List.map_map, List.map_map]
  exact List.map_congr_left fun c hc => (h c hc).print (keeps_items hk hl c hc)

/-! ### Leaves -/

theorem listDepth_eq_zero (h : ∀ item, type.nullable ≠ .list item) : type.listDepth = 0 := by
  induction type with
  | named name => rfl
  | list item => exact (h item rfl).elim
  | nonNull inner ih => exact ih h

theorem writeConstant_leaf {t : NamedType} (hn : c ≠ .null) (ht : type? type.core = some t)
    (hi : t.isInputObject = false) (hl : ∀ item, type.nullable ≠ .list item) :
    writeConstant type? c type = (writeLeaf t c).map some := by
  cases c with
  | null => exact (hn rfl).elim
  | list items =>
      rw [writeConstant]
      split
      · exact (hl _ (by assumption)).elim
      · rw [core_nullable, ht]
        simp [hi]
  | object given =>
      rw [writeConstant_object, ht]
      simp [hi]
  | _ =>
      unfold writeConstant
      rw [ht]
      simp [hi]

theorem readLiteral_leaf {t : NamedType} (hn : literal ≠ .null)
    (hs : shape type.core = .ok (.leaf t)) (hl : ∀ item, type.nullable ≠ .list item) :
    readLiteral shape literal type = .ok (leafLiteral t literal) := by
  have hdepth := listDepth_eq_zero hl
  cases literal with
  | null => exact (hn rfl).elim
  | list items =>
      rw [readLiteral]
      split
      · exact (hl _ (by assumption)).elim
      · rw [core_nullable, hs]
        rfl
  | object given =>
      rw [readLiteral, hs, hdepth]
      exact congrArg Except.ok Option.map_id'
  | _ =>
      unfold readLiteral
      rw [hs, hdepth]
      exact congrArg Except.ok Option.map_id'

theorem numberOf_ne_null (text : String) : numberOf text ≠ .null := by
  unfold numberOf
  split <;> simp

theorem spelling_writeLeaf {t : NamedType} (hn : c ≠ .null) (hw : writeLeaf t c = .ok literal) :
    spelling literal ≠ .null := by
  cases c with
  | null => exact (hn rfl).elim
  | float value =>
      obtain ⟨-, rfl⟩ := finite_of_writeLeaf hw
      exact numberOf_ne_null _
  | string text =>
      cases hw
      split
      · simp [spelling]
      · split <;> simp [spelling]
  | list items => cases hw
  | object given => cases hw
  | _ =>
      cases hw
      simp [spelling]

theorem rereads_leaf {t t' : NamedType} {read : Value} (hk : type? type.core = some t)
    (hleaf : t.isLeaf) (hp : read.Proper true) (hr : leafLiteral t read = some c) (hn : c ≠ .null)
    (hl : ∀ item, type.nullable ≠ .list item)
    (hw : writeConstant type? c type = .ok (some literal))
    (hs : shape type.core = .ok (.leaf t'))
    (hsame : ∀ literal, leafLiteral t' literal = leafLiteral t literal) :
    Rereads type? shape c type := by
  have hi := isInputObject_of_isLeaf hleaf
  have hwrite := hw
  rw [writeConstant_leaf hn hk hi hl] at hw
  obtain ⟨written, hw, he⟩ := Except.map_eq_ok hw
  cases he
  obtain ⟨c', written', hr', hn', hw', hprint⟩ :=
    readsBack_leaf hleaf hp hr hn hw
  refine .intro hwrite ?_ (iff_of_false hn' hn) ?_ fun hkeep => hprint (keeps_leaf hkeep hk hi hl)
  · rw [readLiteral_leaf (spelling_writeLeaf hn hw) hs hl, hsame, hr']
  · rw [writeConstant_leaf hn' hk hi hl, hw']
    rfl

/-! ### Objects -/

section Given

variable {α β β' γ : Type} {fields : List InputField} {value? : InputField → Option α}

/-- Entries that are changed in two ways are the same where the changed values are. -/
theorem givenFields_congr {change : InputField → α → β} {change' : InputField → α → β'}
    {merge : String × β → γ} {merge' : String × β' → γ}
    (h : ∀ f ∈ fields, ∀ a, value? f = some a →
      merge (f.name, change f a) = merge' (f.name, change' f a)) :
    (givenFields fields fun f => (value? f).map (change f)).map merge =
      (givenFields fields fun f => (value? f).map (change' f)).map merge' := by
  induction fields with
  | nil => rfl
  | cons f fields ih =>
      obtain ⟨hf, h⟩ := List.forall_mem_cons.mp h
      rw [givenFields_cons, givenFields_cons]
      cases hv : value? f with
      | none => exact ih h
      | some a =>
          rw [Option.map_some, Option.map_some, List.map_cons, List.map_cons, ih h, hf a hv]

/-- An object with one entry has one field that is given. -/
theorem givenFields_singleton {name : String} {a : α} (h : givenFields fields value? = [(name, a)])
    (change : InputField → α → β) : ∃ f ∈ fields, value? f = some a
      ∧ (givenFields fields fun f => (value? f).map (change f)) = [(name, change f a)] := by
  induction fields with
  | nil => cases h
  | cons f fields ih =>
      rw [givenFields_cons] at h ⊢
      cases hv : value? f with
      | none =>
          rw [hv] at h
          obtain ⟨f', hf', hv', he⟩ := ih h
          exact ⟨f', List.mem_cons_of_mem _ hf', hv', he⟩
      | some b =>
          rw [hv] at h
          obtain ⟨hfirst, hrest⟩ := List.cons.inj h
          cases hfirst
          refine ⟨f, List.mem_cons_self, hv, ?_⟩
          have hempty : (givenFields fields fun f => (value? f).map (change f)) = [] := by
            simpa [givenFields] using hrest
          rw [Option.map_some, hempty]

theorem nodup_givenFields (hd : (fields.map InputField.name).Nodup) :
    ((givenFields fields value?).map Prod.fst).Nodup := by
  induction fields with
  | nil => simp [givenFields]
  | cons f fields ih =>
      obtain ⟨hf, hd⟩ := List.nodup_cons.mp hd
      rw [givenFields, List.filterMap_cons]
      cases hv : value? f with
      | none => exact ih hd
      | some a =>
          refine List.nodup_cons.mpr ⟨fun hm => ?_, ih hd⟩
          obtain ⟨p, hp, he⟩ := List.mem_map.mp hm
          obtain ⟨f', hf', hn⟩ := List.mem_filterMap.mp hp
          obtain ⟨a', -, rfl⟩ := Option.map_eq_some_iff.mp hn
          have hname : f'.name = f.name := he
          exact hf (hname ▸ List.mem_map_of_mem hf')

theorem lookup_givenFields (hd : (fields.map InputField.name).Nodup) {f : InputField}
    (hf : f ∈ fields) : (givenFields fields value?).lookup f.name = value? f := by
  cases hv : value? f with
  | some a =>
      refine (mem_iff_lookup (nodup_givenFields hd)).mp (List.mem_filterMap.mpr ⟨f, hf, ?_⟩)
      rw [hv]
      rfl
  | none =>
      refine Option.eq_none_iff_forall_ne_some.mpr fun a ha => ?_
      obtain ⟨f', hf', hp⟩ := List.mem_filterMap.mp (mem_of_lookup ha)
      obtain ⟨a', hv', he⟩ := Option.map_eq_some_iff.mp hp
      obtain rfl := List.inj_on_of_nodup_map hd hf' hf (Prod.mk.inj he).1
      rw [hv] at hv'
      cases hv'

end Given

theorem writeField_lookup (given : List (String × Constant)) (name : String) :
    writeField type? given name type =
      ((given.lookup name).map fun c => writeConstant type? c type).getD (.ok none) := by
  induction given with
  | nil => rfl
  | cons pair given ih =>
      obtain ⟨key, value⟩ := pair
      rw [writeField, lookup_cons_if, ih]
      by_cases hk : key = name
      · simp [hk]
      · rw [if_neg (by simpa using hk), if_neg fun he => hk he.symm]

theorem readField_none {given : List (String × Value)} {name : String}
    (h : given.lookup name = none) : readField shape given name type = .ok none := by
  induction given with
  | nil => rfl
  | cons pair given ih =>
      obtain ⟨key, value⟩ := pair
      rw [lookup_cons_if] at h
      split at h
      · cases h
      · rename_i hk
        rw [readField, ih h]
        simp [Ne.symm hk]
        rfl

theorem readField_some {given : List (String × Value)} (hd : (given.map Prod.fst).Nodup)
    {name : String} {read : Option Constant} (h : given.lookup name = some literal)
    (hr : readLiteral shape literal type = .ok read) :
    readField shape given name type = .ok (some read) := by
  induction given with
  | nil => cases h
  | cons pair given ih =>
      obtain ⟨key, value⟩ := pair
      obtain ⟨hk, hd⟩ := List.nodup_cons.mp hd
      rw [lookup_cons_if] at h
      rw [readField]
      split at h
      · rename_i he
        cases h
        subst he
        have hnone : given.lookup name = none :=
          Option.eq_none_iff_forall_ne_some.mpr fun v hv =>
            hk (List.mem_map.mpr ⟨_, mem_of_lookup hv, rfl⟩)
        rw [readField_none hnone, hr]
        simp
        rfl
      · rw [ih hd h]
        rfl

/-- Fields of the same names and types, of which the second has no default unless the first has. -/
structure InputField.Echoes (f f' : InputField) : Prop where
  name : f'.name = f.name
  type : f'.type = f.type
  absent : f.default = none → f'.default = none

/-- Fields are read as they were given where those that are absent may be left out. -/
theorem objectFields_given {fields found : List InputField} {value? : InputField → Option Constant}
    {read? : String → TypeRef → Except ε (Option (Option Constant))}
    (hf : List.Forall₂ InputField.Echoes fields found)
    (hr : ∀ f ∈ fields, read? f.name f.type = .ok ((value? f).map some))
    (ha : ∀ f ∈ fields, value? f = none → f.default = none ∧ f.type.isNonNull = false) :
    objectFields (fun f => read? f.name f.type) found = .ok (some (givenFields fields value?)) := by
  induction hf with
  | nil => rfl
  | @cons f f' fields found he _ ih =>
      obtain ⟨hfirst, hr⟩ := List.forall_mem_cons.mp hr
      obtain ⟨habsent, ha⟩ := List.forall_mem_cons.mp ha
      rw [objectFields, he.name, he.type, hfirst, ih hr ha, givenFields_cons]
      cases hv : value? f with
      | some c => rfl
      | none =>
          obtain ⟨hd, hn⟩ := habsent hv
          simp only [Option.map_none, he.absent hd, hn]
          rfl

theorem writtenFields_eq {fields : List InputField} {literal? : InputField → Option Value}
    {write? : InputField → Except Unwritable (Option Value)}
    (h : ∀ f ∈ fields, write? f = .ok (literal? f)) :
    writtenFields write? fields = .ok (givenFields fields literal?) := by
  induction fields with
  | nil => rfl
  | cons f fields ih =>
      obtain ⟨hf, h⟩ := List.forall_mem_cons.mp h
      rw [writtenFields, hf, ih h, givenFields_cons]
      cases literal? f <;> rfl

theorem singleField_iff {given : List (String × Constant)} :
    singleField given ↔ ∃ name c, given = [(name, c)] ∧ c ≠ .null := by
  constructor
  · intro h
    unfold singleField at h
    split at h
    · cases h
    · rename_i pair hn
      obtain ⟨name, c⟩ := pair
      exact ⟨name, c, rfl, fun he => hn name (by rw [he])⟩
    · cases h
  · rintro ⟨name, c, rfl, hn⟩
    cases c <;> first | rfl | exact (hn rfl).elim

section Objects

variable {t : NamedType} {fields : List InputField} {oneOf : Bool}
  {value? : InputField → Option Constant}

theorem writeConstant_given (hk : type? type.core = some t) (hs : t.shape = .inputObject fields oneOf)
    (hd : (fields.map InputField.name).Nodup) {write : InputField → Constant → Value}
    (h : ∀ f ∈ fields, ∀ c, value? f = some c →
      writeConstant type? c f.type = .ok (some (write f c))) :
    writeConstant type? (.object (givenFields fields value?)) type =
      .ok (some (.object (givenFields fields fun f => (value? f).map (write f)))) := by
  have hfields : t.inputFields = fields := by simp [NamedType.inputFields, hs]
  have hwritten : writtenFields (fun f => writeField type? (givenFields fields value?) f.name f.type)
      fields = .ok (givenFields fields fun f => (value? f).map (write f)) := by
    refine writtenFields_eq fun f hf => ?_
    rw [writeField_lookup, lookup_givenFields hd hf]
    cases hv : value? f with
    | none => rfl
    | some c => exact h f hf c hv
  rw [writeConstant_object, hk]
  simp only [NamedType.isInputObject, hs, hfields, hwritten]
  rfl

theorem print_fields {given given' : List (String × Value)}
    (h : (given.map fun p => (p.1, p.2.print)) = given'.map fun p => (p.1, p.2.print)) :
    (Value.object given).print = (Value.object given').print := by
  have hshow : ∀ given : List (String × Value), (given.map fun f => f.1 ++ ": " ++ f.2.print) =
      (given.map fun p => (p.1, p.2.print)).map fun p => p.1 ++ ": " ++ p.2 := by
    intro given
    rw [List.map_map]
    rfl
  rw [Value.print, Value.print, printFields_eq, printFields_eq, hshow, hshow, h]

/-- One field that is not null stays one when its value changes. -/
theorem singleField_changed {change : InputField → Constant → Constant}
    (h : singleField (givenFields fields value?))
    (hn : ∀ f ∈ fields, ∀ c, value? f = some c → change f c = .null → c = .null) :
    singleField (givenFields fields fun f => (value? f).map (change f)) := by
  obtain ⟨name, c, hgiven, hc⟩ := singleField_iff.mp h
  obtain ⟨f, hf, hv, hchanged⟩ := givenFields_singleton hgiven change
  exact singleField_iff.mpr ⟨_, _, hchanged, fun he => hc (hn f hf c hv he)⟩

/-- The literals of the fields of an object are read as an object. -/
theorem readLiteral_given {expected : Unit → Except ε (List InputField)} {found : List InputField}
    {written : InputField → Constant → Value} {change : InputField → Constant → Constant}
    (hd : (fields.map InputField.name).Nodup)
    (hr : ∀ f ∈ fields, ∀ c, value? f = some c →
      readLiteral shape (written f c) f.type = .ok (some (change f c)))
    (ha : ∀ f ∈ fields, value? f = none → f.default = none ∧ f.type.isNonNull = false)
    (hsingle : oneOf → singleField (givenFields fields fun f => (value? f).map (change f)))
    (hl : ∀ item, type.nullable ≠ .list item)
    (hshape : shape type.core = .ok (.object expected oneOf)) (hfound : expected () = .ok found)
    (hf : List.Forall₂ InputField.Echoes fields found) :
    readLiteral shape (.object (givenFields fields fun f => (value? f).map (written f))) type =
      .ok (some (.object (givenFields fields fun f => (value? f).map (change f)))) := by
  have hfields : objectFields (fun f => readField shape (givenFields fields fun f =>
      (value? f).map (written f)) f.name f.type) found =
        .ok (some (givenFields fields fun f => (value? f).map (change f))) := by
    refine objectFields_given hf (fun f hm => ?_) fun f hm hn => ha f hm (Option.map_eq_none_iff.mp hn)
    have hlookup : (givenFields fields fun f => (value? f).map (written f)).lookup f.name =
        (value? f).map (written f) := lookup_givenFields hd hm
    cases hc : value? f with
    | none =>
        rw [hc] at hlookup
        exact readField_none hlookup
    | some c =>
        rw [hc] at hlookup
        exact readField_some (nodup_givenFields hd) hlookup (hr f hm c hc)
  rw [readLiteral, hshape]
  refine (Except.bind_of_ok hfound).trans ((Except.bind_of_ok hfields).trans ?_)
  rw [listDepth_eq_zero hl]
  dsimp only
  rw [if_neg]
  · rfl
  · intro hone
    rw [Bool.and_eq_true, Bool.not_eq_true'] at hone
    rw [hsingle hone.1] at hone
    cases hone.2

theorem rereads_given {expected : Unit → Except ε (List InputField)} {found : List InputField}
    (hk : type? type.core = some t) (hs : t.shape = .inputObject fields oneOf)
    (hd : (fields.map InputField.name).Nodup)
    (hv : ∀ f ∈ fields, ∀ c, value? f = some c → Rereads type? shape c f.type)
    (ha : ∀ f ∈ fields, value? f = none → f.default = none ∧ f.type.isNonNull = false)
    (hsingle : oneOf → singleField (givenFields fields value?))
    (hl : ∀ item, type.nullable ≠ .list item)
    (hshape : shape type.core = .ok (.object expected oneOf)) (hfound : expected () = .ok found)
    (hf : List.Forall₂ InputField.Echoes fields found) :
    Rereads type? shape (.object (givenFields fields value?)) type := by
  have hwrite := writeConstant_given hk hs hd fun f hm c hc => (hv f hm c hc).writes
  have hagain : ∀ f ∈ fields, ∀ c, ((value? f).map fun c => again type? shape c f.type) = some c →
      writeConstant type? c f.type = .ok (some (literalOf type? c f.type)) := by
    intro f hm _ hc
    obtain ⟨c, hc', rfl⟩ := Option.map_eq_some_iff.mp hc
    exact (hv f hm c hc').rewrites
  have hrewrite := writeConstant_given hk hs hd hagain
  simp only [Option.map_map, Function.comp_def] at hrewrite
  have hspelling : fieldSpellings (givenFields fields fun f =>
      (value? f).map fun c => literalOf type? c f.type) = givenFields fields fun f =>
        (value? f).map fun c => spelling (literalOf type? c f.type) := by
    rw [fieldSpellings_eq]
    refine (givenFields_congr fun f _ c _ => ?_).trans (List.map_id _)
    rfl
  have hread : readLiteral shape (spelling (.object (givenFields fields fun f =>
      (value? f).map fun c => literalOf type? c f.type))) type =
        .ok (some (.object (givenFields fields fun f =>
          (value? f).map fun c => again type? shape c f.type))) := by
    rw [spelling, hspelling]
    exact readLiteral_given hd (fun f hm c hc => (hv f hm c hc).reads) ha
      (fun hone => singleField_changed (hsingle hone) fun f hm c hc => (hv f hm c hc).null.mp)
      hl hshape hfound hf
  refine .intro hwrite hread (by simp) hrewrite fun hkeep =>
    print_fields (givenFields_congr fun f hm c hc => ?_)
  have hlookup := (lookup_givenFields hd hm).trans hc
  rw [(hv f hm c hc).print (keeps_fields hkeep hk hs f hm c hlookup)]

end Objects

/-! ### Constants that fit -/

/-- Literals are read again as types say: leaves are read alike, and readable input objects field by
field. -/
structure ReadsAgain (shape : String → Except ε (InputShape ε)) (type? : String → Option NamedType)
    (readable : String → Prop) : Prop where
  leaf : ∀ name t, type? name = some t → t.isLeaf → ∃ t', shape name = .ok (.leaf t')
    ∧ ∀ literal, leafLiteral t' literal = leafLiteral t literal
  object : ∀ name t fields oneOf, type? name = some t → t.shape = .inputObject fields oneOf →
    readable name → ∃ expected found, shape name = .ok (.object expected oneOf)
      ∧ expected () = .ok found ∧ List.Forall₂ InputField.Echoes fields found

/-- What fits a type is read back. -/
theorem rereads_fits {readable : String → Prop} (hshape : ReadsAgain shape type? readable)
    (h : Fits type? readable c type) (hw : Writable type? c type) : Rereads type? shape c type := by
  induction h with
  | null hn => exact rereads_null hn
  | list hl _ ih =>
      exact rereads_items hl fun c hc => ih c hc ((writable_items hl).mp hw c hc)
  | leaf hknown hleaf hp hread hn hnl =>
      obtain ⟨t', hs, hsame⟩ := hshape.leaf _ _ hknown hleaf
      obtain ⟨written, hw⟩ := (writeConstant_isOk _ _).mpr hw
      have hwrite := hw
      rw [writeConstant_leaf hn hknown (isInputObject_of_isLeaf hleaf) hnl] at hwrite
      obtain ⟨literal, -, rfl⟩ := Except.map_eq_ok hwrite
      exact rereads_leaf hknown hleaf hp hread hn hnl hw hs hsame
  | object hknown hs hreadable hnames hd _ ha hsingle hnl ih =>
      obtain ⟨expected, found, hshape, hfound, hechoes⟩ := hshape.object _ _ _ _ hknown hs hreadable
      refine rereads_given hknown hs hd (fun f hf c hc => ih f hf c hc ?_) ha hsingle hnl hshape hfound hechoes
      exact (writable_fields hknown hs).mp hw f hf c ((lookup_givenFields hd hf).trans hc)

end Again

end SdlAssembly.Schemas
