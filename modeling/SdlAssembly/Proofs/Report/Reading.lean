import SdlAssembly.Proofs.Lexing.Strings
import SdlAssembly.Proofs.Number.Numerals
import SdlAssembly.Proofs.Schema.Retelling
import SdlAssembly.Report.Json

/-!
# Reading reports

The texts of JSON and the values that they stand for. Blanks between the parts of a text say
nothing, a string is told by its UTF-16 units, and of the values of a name in an object the last one
counts. Both texts of a value are read as this value again, whichever characters its strings have.
-/

namespace SdlAssembly.Report.Json

open Text Grammar Lexer Number Schemas

/-! ## Strings -/

/-- Reads a string after its opening quote, as UTF-16 units. -/
def readUnits : List Char → Option (List Nat × List Char)
  | [] => none
  | '"' :: rest => some ([], rest)
  | '\\' :: 'u' :: a :: b :: c :: d :: rest => do
    let unit ← Quoted.fourDigits? [a, b, c, d]
    let (others, rest) ← readUnits rest
    return (unit :: others, rest)
  | '\\' :: letter :: rest => do
    let c ← Quoted.shortEscape? letter
    let (others, rest) ← readUnits rest
    return (c.toNat :: others, rest)
  | c :: rest =>
    if c.toNat < 0x20 then none
    else do
      let (others, rest) ← readUnits rest
      return (units c ++ others, rest)

/-- The characters of UTF-16 units; a surrogate alone stands for none. -/
def ofUnits : List Nat → Option (List Char)
  | [] => some []
  | unit :: rest =>
    if Quoted.isLeadingSurrogate unit then
      match rest with
      | [] => none
      | trailing :: rest =>
        if Quoted.isTrailingSurrogate trailing then
          (ofUnits rest).map (Quoted.joinSurrogates unit trailing :: ·)
        else none
    else if Quoted.isTrailingSurrogate unit then none
    else (ofUnits rest).map (Char.ofNat unit :: ·)

def readString (cs : List Char) : Option (String × List Char) := do
  let (units, rest) ← readUnits cs
  let text ← ofUnits units
  return (String.ofList text, rest)

theorem units_of_lt {c : Char} (h : c.toNat < 0x10000) : units c = [c.toNat] := if_pos h

theorem ofUnits_units (c : Char) (rest : List Nat) :
    ofUnits (units c ++ rest) = (ofUnits rest).map (c :: ·) := by
  have hvalid : c.toNat < 0xD800 ∨ 0xDFFF < c.toNat ∧ c.toNat < 0x110000 := c.valid
  by_cases hn : c.toNat < 0x10000
  · have hleading : Quoted.isLeadingSurrogate c.toNat = false := by
      simp only [Quoted.isLeadingSurrogate, Bool.and_eq_false_iff, decide_eq_false_iff_not]
      omega
    have htrailing : Quoted.isTrailingSurrogate c.toNat = false := by
      simp only [Quoted.isTrailingSurrogate, Bool.and_eq_false_iff, decide_eq_false_iff_not]
      omega
    rw [units_of_lt hn, List.singleton_append, ofUnits.eq_def]
    simp [hleading, htrailing]
  · have hunits : units c = [0xD800 + (c.toNat - 0x10000) / 0x400,
      0xDC00 + (c.toNat - 0x10000) % 0x400] := if_neg hn
    have hleading : Quoted.isLeadingSurrogate (0xD800 + (c.toNat - 0x10000) / 0x400) = true := by
      simp only [Quoted.isLeadingSurrogate, Bool.and_eq_true, decide_eq_true_eq]
      omega
    have htrailing : Quoted.isTrailingSurrogate (0xDC00 + (c.toNat - 0x10000) % 0x400) = true := by
      simp only [Quoted.isTrailingSurrogate, Bool.and_eq_true, decide_eq_true_eq]
      omega
    have hjoin : Quoted.joinSurrogates (0xD800 + (c.toNat - 0x10000) / 0x400)
        (0xDC00 + (c.toNat - 0x10000) % 0x400) = c := by
      rw [Quoted.joinSurrogates, ← Char.ofNat_toNat c]
      refine congrArg Char.ofNat ?_
      rw [Char.ofNat_toNat]
      omega
    simp only [hunits, List.cons_append, List.nil_append, ofUnits, hleading, htrailing, hjoin,
      ↓reduceIte]

theorem ofUnits_flatMap (cs : List Char) : ofUnits (cs.flatMap units) = some cs := by
  induction cs with
  | nil => rfl
  | cons c cs ih => rw [List.flatMap_cons, ofUnits_units, ih, Option.map_some]

/-! ## Written characters -/

theorem fourDigits?_hex {n : Nat} (h : n < 0x10000) :
    ∃ a b c d, Literal.hex 4 n = [a, b, c, d] ∧ Quoted.fourDigits? [a, b, c, d] = some n := by
  have hdigit : ∀ k, Quoted.hexValue? (Literal.hexDigit (k % 16)) = some (k % 16) := by
    have hall : ∀ d, d < 16 → Quoted.hexValue? (Literal.hexDigit d) = some d := by decide
    exact fun k => hall _ (Nat.mod_lt k (by decide))
  refine ⟨_, _, _, _, rfl, ?_⟩
  simp only [Quoted.fourDigits?, hdigit, bind, Option.bind_some, pure, Option.some.injEq]
  omega

/-- What is read of a string starts with some units. -/
def before (units : List Nat) (read : List Nat × List Char) : List Nat × List Char :=
  (units ++ read.1, read.2)

theorem readUnits_escapeUnit {unit : Nat} (h : unit < 0x10000) (rest : List Char) :
    readUnits (escapeUnit unit ++ rest) = (readUnits rest).map (before [unit]) := by
  obtain ⟨a, b, c, d, hhex, hvalue⟩ := fourDigits?_hex h
  rw [escapeUnit, hhex]
  simp only [List.cons_append, List.nil_append, readUnits, hvalue, bind, Option.bind_some]
  cases readUnits rest <;> rfl

theorem readUnits_escapeUnits {us : List Nat} (h : ∀ unit ∈ us, unit < 0x10000)
    (rest : List Char) :
    readUnits (us.flatMap escapeUnit ++ rest) = (readUnits rest).map (before us) := by
  induction us with
  | nil =>
      rw [List.flatMap_nil, List.nil_append]
      cases readUnits rest <;> rfl
  | cons unit us ih =>
      obtain ⟨hunit, h⟩ := List.forall_mem_cons.mp h
      rw [List.flatMap_cons, List.append_assoc, readUnits_escapeUnit hunit, ih h]
      cases readUnits rest <;> rfl

theorem readUnits_short {letter c : Char} (hl : letter ≠ 'u')
    (hs : Quoted.shortEscape? letter = some c) (hc : c.toNat < 0x10000) (rest : List Char) :
    readUnits ('\\' :: letter :: rest) = (readUnits rest).map (before (units c)) := by
  have hletter : readUnits ('\\' :: letter :: rest) = (do
      let c ← Quoted.shortEscape? letter
      let (others, rest) ← readUnits rest
      return (c.toNat :: others, rest)) := by
    rw [readUnits]
    simp [hl]
  rw [hletter, units_of_lt hc, hs]
  cases readUnits rest <;> rfl

theorem units_lt (c : Char) : ∀ unit ∈ units c, unit < 0x10000 := by
  have hvalid : c.toNat < 0xD800 ∨ 0xDFFF < c.toNat ∧ c.toNat < 0x110000 := c.valid
  intro unit hm
  simp only [units] at hm
  split at hm
  · rename_i hn
    rw [List.mem_singleton.mp hm]
    exact hn
  · rcases List.mem_cons.mp hm with rfl | hm
    · omega
    · rw [List.mem_singleton.mp hm]
      omega

theorem readUnits_plain {c : Char} (hq : c ≠ '"') (hb : c ≠ '\\') (hc : 0x20 ≤ c.toNat)
    (rest : List Char) : readUnits (c :: rest) = (readUnits rest).map (before (units c)) := by
  have hplain : readUnits (c :: rest) = (do
      let (others, rest) ← readUnits rest
      return (units c ++ others, rest)) := by
    rw [readUnits.eq_def]
    split <;> simp_all
  rw [hplain]
  cases readUnits rest <;> rfl

/-- A character is read as its units, whichever form it is written in. -/
theorem readUnits_encodeChar (ascii : Bool) (c : Char) (rest : List Char) :
    readUnits (encodeChar ascii c ++ rest) = (readUnits rest).map (before (units c)) := by
  simp only [encodeChar]
  -- the characters with a short form, told by themselves and then by their numbers
  iterate 5
    split
    · rename_i h
      subst h
      exact readUnits_short (by decide) rfl (by decide) rest
  split
  · rename_i h
    obtain rfl : c = Char.ofNat 8 := by rw [← h, Char.ofNat_toNat]
    exact readUnits_short (by decide) rfl (by decide) rest
  split
  · rename_i h
    obtain rfl : c = Char.ofNat 12 := by rw [← h, Char.ofNat_toNat]
    exact readUnits_short (by decide) rfl (by decide) rest
  split
  · rename_i h
    rw [units_of_lt (by omega)]
    exact readUnits_escapeUnit (by omega) rest
  split
  · exact readUnits_escapeUnits (units_lt c) rest
  · rename_i hq hb _ _ _ _ _ hc _
    exact readUnits_plain hq hb (by omega) rest

/-- What is written of a text up to its closing quote is read as this text. -/
theorem readString_encoded (ascii : Bool) (text : String) (rest : List Char) :
    readString (text.toList.flatMap (encodeChar ascii) ++ '"' :: rest) = some (text, rest) := by
  have hunits : ∀ cs : List Char, readUnits (cs.flatMap (encodeChar ascii) ++ '"' :: rest) =
      some (cs.flatMap units, rest) := by
    intro cs
    induction cs with
    | nil => rfl
    | cons c cs ih =>
        rw [List.flatMap_cons, List.append_assoc, readUnits_encodeChar, ih]
        rfl
  rw [readString, hunits]
  simp only [bind, Option.bind_some, ofUnits_flatMap, String.ofList_toList]
  rfl

/-! ## Values -/

def isBlank (c : Char) : Bool := c == ' ' || c == '\n' || c == '\r' || c == '\t'

def skipBlanks (cs : List Char) : List Char := cs.dropWhile isBlank

/-- Reads a number: a whole one, if it has no fraction and no exponent. -/
def readNumber (cs : List Char) : Option (Json × List Char) :=
  match number cs with
  | .lexeme (.int text) length => some (.int (readInt text), cs.drop length)
  | .lexeme (.float text) length => some (.float (readFloat text), cs.drop length)
  | _ => none

/-- Reads a value without parts. -/
def readScalar : List Char → Option (Json × List Char)
  | '"' :: rest => (readString rest).map fun (text, rest) => (.string text, rest)
  | 'n' :: 'u' :: 'l' :: 'l' :: rest => some (.null, rest)
  | 't' :: 'r' :: 'u' :: 'e' :: rest => some (.boolean true, rest)
  | 'f' :: 'a' :: 'l' :: 's' :: 'e' :: rest => some (.boolean false, rest)
  | cs => readNumber cs

section Parts

variable {α : Type}

/-- Reads items with commas between them up to a closing bracket. -/
def readItems (one : List Char → Option (α × List Char)) (closing : Char) :
    Nat → List Char → Option (List α × List Char)
  | 0, _ => none
  | most + 1, cs => do
    let (item, rest) ← one (skipBlanks cs)
    match skipBlanks rest with
    | [] => none
    | c :: rest =>
      if c = closing then some ([item], rest)
      else if c = ',' then
        let (items, rest) ← readItems one closing most rest
        return (item :: items, rest)
      else none

/-- Reads what follows an opening bracket. -/
def readBracket (one : List Char → Option (α × List Char)) (closing : Char) (cs : List Char) :
    Option (List α × List Char) :=
  match skipBlanks cs with
  | [] => none
  | c :: rest =>
    if c = closing then some ([], rest) else readItems one closing cs.length (c :: rest)

def readField (one : List Char → Option (α × List Char)) :
    List Char → Option ((String × α) × List Char)
  | '"' :: rest => do
    let (name, rest) ← readString rest
    match skipBlanks rest with
    | ':' :: rest => do
      let (value, rest) ← one (skipBlanks rest)
      return ((name, value), rest)
    | _ => none
  | _ => none

end Parts

/-- Reads a value that is not nested too deep. -/
def readValue : Nat → List Char → Option (Json × List Char)
  | 0, _ => none
  | deepest + 1, '[' :: rest =>
    (readBracket (readValue deepest) ']' rest).map fun (items, rest) => (.list items, rest)
  | deepest + 1, '\x7b' :: rest =>
    (readBracket (readField (readValue deepest)) '\x7d' rest).map fun (fields, rest) =>
      (.object (lastOfEach Prod.fst fields), rest)
  | _ + 1, cs => readScalar cs

/-- The value that a text stands for. No text is nested deeper than it is long. -/
def read (text : String) : Option Json := do
  let (value, rest) ← readValue text.length (skipBlanks text.toList)
  if (skipBlanks rest).isEmpty then some value else none

/-! ## What is read of a text -/

/-- A text is read as a value, whatever follows that is no part of a number. -/
def Reads {α : Type} (one : List Char → Option (α × List Char)) (text : List Char) (a : α) : Prop :=
  ∀ rest, EndsNumber rest → one (text ++ rest) = some (a, rest)

/-- Texts that start an item: there is nothing to skip before them, and no bracket closes. -/
def Opens (text : List Char) : Prop :=
  ∃ c cs, text = c :: cs ∧ isBlank c = false ∧ c ≠ ']' ∧ c ≠ '\x7d'

theorem skipBlanks_cons {c : Char} (h : isBlank c = false) (cs : List Char) :
    skipBlanks (c :: cs) = c :: cs := by
  rw [skipBlanks, List.dropWhile_cons_of_neg (by simp [h])]

theorem skipBlanks_newline (depth : Nat) (cs : List Char) :
    skipBlanks (newline depth ++ cs) = skipBlanks cs := by
  refine List.dropWhile_append_of_pos fun c hc => ?_
  rcases List.mem_cons.mp hc with rfl | hc
  · rfl
  · rw [(List.mem_replicate.mp hc).2]
    rfl

theorem Opens.skipBlanks {text : List Char} (h : Opens text) (rest : List Char) :
    Json.skipBlanks (text ++ rest) = text ++ rest := by
  obtain ⟨c, cs, rfl, hc, -, -⟩ := h
  exact skipBlanks_cons hc _

/-- An item of a bracket after the first one. -/
def separated (depth : Nat) (text : List Char) : List Char := ',' :: newline depth ++ text

theorem bracket_cons (opening closing : Char) (depth : Nat) (first : List Char)
    (others : List (List Char)) : bracket opening closing depth (first :: others) =
      opening :: (newline (depth + 1) ++ (first ++ (others.flatMap (separated (depth + 1))
        ++ (newline depth ++ [closing])))) := by
  rw [bracket]
  simp only [List.cons_append, List.append_assoc]
  rfl

theorem length_le_separated (depth : Nat) (texts : List (List Char)) :
    texts.length ≤ (texts.flatMap (separated depth)).length := by
  induction texts with
  | nil => exact Nat.le_refl 0
  | cons text texts ih =>
      rw [List.flatMap_cons, List.length_append, separated, List.cons_append, List.length_cons,
        List.length_cons]
      omega

section Brackets

variable {α : Type} {one : List Char → Option (α × List Char)} {text : α → List Char}
  {opening closing : Char}

theorem readItems_newline (depth most : Nat) (cs : List Char) :
    readItems one closing most (newline depth ++ cs) = readItems one closing most cs := by
  cases most with
  | zero => rfl
  | succ most => rw [readItems, readItems, skipBlanks_newline]

theorem readItems_rendered (hclosing : closing = ']' ∨ closing = '\x7d') (depth outer : Nat)
    (rest : List Char) {first : α} {others : List α}
    (h : ∀ item ∈ first :: others, Opens (text item) ∧ Reads one (text item) item) {most : Nat}
    (hm : others.length < most) :
    readItems one closing most (text first
        ++ ((others.map text).flatMap (separated depth)
          ++ (newline outer ++ closing :: rest))) = some (first :: others, rest) := by
  obtain ⟨hblank, hcomma⟩ : isBlank closing = false ∧ ',' ≠ closing := by
    rcases hclosing with rfl | rfl <;> exact ⟨rfl, by decide⟩
  induction others generalizing first most with
  | nil =>
      obtain ⟨most, rfl⟩ := Nat.exists_eq_succ_of_ne_zero (Nat.ne_of_gt hm)
      obtain ⟨hopens, hreads⟩ := h first List.mem_cons_self
      have hread := hreads (newline outer ++ closing :: rest) fun c hc => by
        obtain rfl : '\n' = c := Option.some.inj hc
        decide
      rw [List.map_nil, List.flatMap_nil, List.nil_append, readItems, hopens.skipBlanks, hread]
      simp only [bind, Option.bind_some, skipBlanks_newline, skipBlanks_cons hblank, ↓reduceIte]
  | cons second others ih =>
      obtain ⟨most, rfl⟩ := Nat.exists_eq_succ_of_ne_zero (Nat.ne_of_gt (Nat.zero_lt_of_lt hm))
      obtain ⟨⟨hopens, hreads⟩, h⟩ := List.forall_mem_cons.mp h
      have hitems := ih h (Nat.lt_of_succ_lt_succ hm)
      have hread := hreads (',' :: (newline depth ++ (text second
        ++ ((others.map text).flatMap (separated depth)
          ++ (newline outer ++ closing :: rest))))) fun c hc => by
        obtain rfl : ',' = c := Option.some.inj hc
        decide
      rw [List.map_cons, List.flatMap_cons, List.append_assoc, separated, List.append_assoc,
        List.cons_append, readItems, hopens.skipBlanks, hread]
      simp only [bind, Option.bind_some, skipBlanks_cons (c := ',') rfl, hcomma, readItems_newline,
        hitems, ↓reduceIte]
      rfl

/-- Items between brackets are read as these items. -/
theorem readBracket_rendered (hclosing : closing = ']' ∨ closing = '\x7d') (depth : Nat)
    {items : List α} (h : ∀ item ∈ items, Opens (text item) ∧ Reads one (text item) item) :
    ∃ inner, bracket opening closing depth (items.map text) = opening :: inner
      ∧ ∀ rest, readBracket one closing (inner ++ rest) = some (items, rest) := by
  cases items with
  | nil =>
      have hblank : isBlank closing = false := by rcases hclosing with rfl | rfl <;> rfl
      refine ⟨[closing], rfl, fun rest => ?_⟩
      rw [List.singleton_append, readBracket, skipBlanks_cons hblank]
      exact if_pos rfl
  | cons first others =>
      refine ⟨newline (depth + 1) ++ (text first
        ++ ((others.map text).flatMap (separated (depth + 1)) ++ (newline depth ++ [closing]))),
        bracket_cons .., fun rest => ?_⟩
      have hmost : others.length < (newline (depth + 1) ++ (text first
          ++ ((others.map text).flatMap (separated (depth + 1))
            ++ (newline depth ++ closing :: rest)))).length := by
        have hitems := length_le_separated (depth + 1) (others.map text)
        rw [List.length_map] at hitems
        simp only [List.length_append, List.length_cons]
        omega
      have hitems := readItems_rendered hclosing (depth + 1) depth rest h hmost
      obtain ⟨c, cs, hfirst, hblank, hbracket, hbrace⟩ := (h first List.mem_cons_self).1
      have hc : c ≠ closing := by
        rcases hclosing with rfl | rfl
        · exact hbracket
        · exact hbrace
      simp only [List.append_assoc, List.singleton_append]
      rw [readBracket, skipBlanks_newline]
      rw [hfirst] at hitems ⊢
      rw [List.cons_append, skipBlanks_cons hblank]
      exact (if_neg hc).trans hitems

end Brackets

/-! ## Plain values -/

/-- Values without floating point numbers whose objects have no name twice. -/
inductive Plain : Json → Prop
  | null : Plain .null
  | boolean (value : Bool) : Plain (.boolean value)
  | int (value : Int) : Plain (.int value)
  | string (text : String) : Plain (.string text)
  | list {items : List Json} (hi : ∀ item ∈ items, Plain item) : Plain (.list items)
  | object {fields : List (String × Json)} (hn : (fields.map Prod.fst).Nodup)
    (hf : ∀ field ∈ fields, Plain field.2) : Plain (.object fields)

/-- The text of a field. -/
def fieldText (ascii : Bool) (depth : Nat) (field : String × Json) : List Char :=
  quote ascii field.1 ++ ':' :: ' ' :: field.2.render ascii depth

theorem opens_fieldText (ascii : Bool) (depth : Nat) (field : String × Json) :
    Opens (fieldText ascii depth field) := ⟨'"', _, rfl, rfl, by decide, by decide⟩

theorem length_le_fieldText (ascii : Bool) (depth : Nat) (field : String × Json) :
    (field.2.render ascii depth).length ≤ (fieldText ascii depth field).length := by
  rw [fieldText, List.length_append, List.length_cons, List.length_cons]
  omega

theorem renderItems_eq (ascii : Bool) (depth : Nat) (items : List Json) :
    renderItems ascii depth items = items.map (render ascii depth) := by
  induction items with
  | nil => rfl
  | cons item items ih => rw [renderItems, ih, List.map_cons]

theorem renderFields_eq (ascii : Bool) (depth : Nat) (fields : List (String × Json)) :
    renderFields ascii depth fields = fields.map (fieldText ascii depth) := by
  induction fields with
  | nil => rfl
  | cons field fields ih => rw [renderFields, ih, List.map_cons, fieldText]

theorem bracket_eq_cons (opening closing : Char) (depth : Nat) (texts : List (List Char)) :
    ∃ inner, bracket opening closing depth texts = opening :: inner := by
  cases texts <;> exact ⟨_, rfl⟩

theorem length_bracket_pos {opening closing : Char} {depth : Nat} {texts : List (List Char)} :
    0 < (bracket opening closing depth texts).length := by
  obtain ⟨inner, hinner⟩ := bracket_eq_cons opening closing depth texts
  rw [hinner]
  exact Nat.succ_pos _

theorem length_lt_bracket {opening closing : Char} {depth : Nat} {texts : List (List Char)}
    {text : List Char} (h : text ∈ texts) :
    text.length < (bracket opening closing depth texts).length := by
  cases texts with
  | nil => cases h
  | cons first others =>
      rw [bracket_cons]
      simp only [List.length_append, List.length_cons]
      rcases List.mem_cons.mp h with rfl | h
      · omega
      · have hitem : separated (depth + 1) text ∈ others.map (separated (depth + 1)) :=
          List.mem_map.mpr ⟨text, h, rfl⟩
        have hlength := (List.sublist_flatten_of_mem hitem).length_le
        rw [← List.flatMap_def, separated, List.length_append] at hlength
        omega

/-! ## Numbers -/

theorem exists_numeral (value : Int) : ∃ m : Numeral, (toString value).toList = m.text
    ∧ m.lexeme = .int (toString value) := by
  obtain ⟨sign, whole, hs, hw, ht⟩ := isInteger_int value
  refine ⟨integer hs hw, ht.trans (text_integer hs hw).symm, ?_⟩
  rw [Numeral.lexeme, if_pos ⟨rfl, rfl⟩, text_integer, ← ht, String.ofList_toList]

theorem readInt_toString (value : Int) : readInt (toString value) = value := by
  rw [Int.toString_eq_repr, Int.repr_eq_if]
  split
  · rename_i hv
    rw [Nat.repr_eq_ofList_toDigits, readInt_digits (isDigits_toDigits _),
      Nat.ofDigitChars_ten_toDigits]
    omega
  · rename_i hv
    have hminus : "-" ++ (-value).toNat.repr =
        String.ofList ('-' :: Nat.toDigits 10 (-value).toNat) := by
      rw [Nat.repr_eq_ofList_toDigits, ← String.toList_inj]
      simp
    rw [hminus, readInt_minus, Nat.ofDigitChars_ten_toDigits]
    omega

theorem numeral_starts {c d : Char} (hc : isDigit c ∨ c = '-') (hd : isDigit d = false)
    (hn : d ≠ '-') : c ≠ d := by
  rintro rfl
  rcases hc with hc | rfl
  · exact absurd (hd.symm.trans hc) (by decide)
  · exact hn rfl

theorem readScalar_numeral {m : Numeral} {text : String} (hl : m.lexeme = .int text) :
    Reads readScalar m.text (.int (readInt text)) := by
  intro rest hr
  have hnumber : number (m.text ++ rest) = .lexeme m.lexeme m.text.length :=
    number_eq_lexeme.mpr ⟨m, rest, rfl, hr, rfl, rfl⟩
  have hscalar : readScalar (m.text ++ rest) = readNumber (m.text ++ rest) := by
    obtain ⟨c, cs, ht, hc⟩ := m.text_eq_cons
    rw [ht, List.cons_append, readScalar.eq_def]
    split
    -- no quote and no word starts with a digit or a minus
    any_goals
      rename_i he
      exact (numeral_starts hc rfl (by decide) (List.cons.inj he).1).elim
    rfl
  rw [hscalar, readNumber, hnumber, hl]
  simp

/-! ## Rendered values -/

theorem opens_render {value : Json} (h : Plain value) (ascii : Bool) (depth : Nat) :
    Opens (value.render ascii depth) := by
  cases h with
  | null => exact ⟨'n', _, rfl, rfl, by decide, by decide⟩
  | boolean value =>
      cases value with
      | true => exact ⟨'t', _, rfl, rfl, by decide, by decide⟩
      | false => exact ⟨'f', _, rfl, rfl, by decide, by decide⟩
  | int value =>
      obtain ⟨m, ht, -⟩ := exists_numeral value
      obtain ⟨c, cs, hm, hc⟩ := m.text_eq_cons
      have hne : ∀ {d : Char}, isDigit d = false → d ≠ '-' → c ≠ d := numeral_starts hc
      have hblank : isBlank c = false := by
        simp [isBlank, hne (d := ' ') rfl (by decide), hne (d := '\n') rfl (by decide),
          hne (d := '\r') rfl (by decide), hne (d := '\t') rfl (by decide)]
      exact ⟨c, cs, by rw [render, ht, hm], hblank, hne rfl (by decide), hne rfl (by decide)⟩
  | string text => exact ⟨'"', _, rfl, rfl, by decide, by decide⟩
  | list hi =>
      obtain ⟨inner, hinner⟩ := bracket_eq_cons '[' ']' depth _
      exact ⟨'[', inner, hinner, rfl, by decide, by decide⟩
  | object hn hf =>
      obtain ⟨inner, hinner⟩ := bracket_eq_cons '\x7b' '\x7d' depth _
      exact ⟨'\x7b', inner, hinner, rfl, by decide, by decide⟩

theorem readField_rendered {one : List Char → Option (Json × List Char)} (ascii : Bool)
    (depth : Nat) {field : String × Json} (ho : Opens (field.2.render ascii depth))
    (h : Reads one (field.2.render ascii depth) field.2) :
    Reads (readField one) (fieldText ascii depth field) field := by
  intro rest hr
  have hvalue : skipBlanks (' ' :: (field.2.render ascii depth ++ rest)) =
      field.2.render ascii depth ++ rest := ho.skipBlanks rest
  rw [fieldText, quote]
  simp only [List.cons_append, List.append_assoc, List.nil_append, readField, readString_encoded,
    bind, Option.bind_some, skipBlanks_cons (c := ':') rfl, hvalue, h rest hr]
  rfl

theorem readValue_scalar {text cs : List Char} {c : Char} {value : Json} (ht : text = c :: cs)
    (hb : c ≠ '[') (hc : c ≠ '\x7b') (h : Reads readScalar text value) {deepest : Nat}
    (hd : text.length ≤ deepest) : Reads (readValue deepest) text value := by
  subst ht
  obtain ⟨deepest, rfl⟩ := Nat.exists_eq_succ_of_ne_zero (Nat.ne_of_gt (Nat.zero_lt_of_lt hd))
  intro rest hr
  rw [List.cons_append, readValue]
  · exact h rest hr
  · rintro _ he
    exact hb (List.cons.inj he).1
  · rintro _ he
    exact hc (List.cons.inj he).1

/-- The text of a plain value is read as this value. -/
theorem readValue_render {value : Json} (h : Plain value) (ascii : Bool) (depth deepest : Nat)
    (hd : (value.render ascii depth).length ≤ deepest) :
    Reads (readValue deepest) (value.render ascii depth) value := by
  induction h generalizing depth deepest with
  | null => exact readValue_scalar rfl (by decide) (by decide) (fun _ _ => rfl) hd
  | boolean value =>
      cases value with
      | true => exact readValue_scalar rfl (by decide) (by decide) (fun _ _ => rfl) hd
      | false => exact readValue_scalar rfl (by decide) (by decide) (fun _ _ => rfl) hd
  | int value =>
      obtain ⟨m, ht, hl⟩ := exists_numeral value
      obtain ⟨c, cs, hm, hc⟩ := m.text_eq_cons
      have hscalar := readScalar_numeral hl
      rw [readInt_toString, ← ht] at hscalar
      exact readValue_scalar (ht.trans hm) (numeral_starts hc rfl (by decide))
        (numeral_starts hc rfl (by decide)) hscalar hd
  | string text =>
      have hscalar : Reads readScalar (quote ascii text) (.string text) := by
        intro rest _
        rw [quote, List.append_assoc, List.singleton_append, List.cons_append, readScalar,
          readString_encoded]
        rfl
      exact readValue_scalar rfl (by decide) (by decide) hscalar hd
  | @list items hi ih =>
      rw [render, renderItems_eq] at hd ⊢
      obtain ⟨deepest, rfl⟩ := Nat.exists_eq_succ_of_ne_zero
        (Nat.ne_of_gt (Nat.lt_of_lt_of_le length_bracket_pos hd))
      obtain ⟨inner, hinner, hread⟩ := @readBracket_rendered _ (readValue deepest)
        (render ascii (depth + 1)) '[' ']' (.inl rfl) depth items fun item hm =>
          ⟨opens_render (hi item hm) ascii _, ih item hm _ _ (by
            have hlength := Nat.lt_of_lt_of_le (length_lt_bracket (List.mem_map_of_mem hm)) hd
            omega)⟩
      intro rest _
      rw [hinner, List.cons_append, readValue, hread]
      rfl
  | @object fields hn hf ih =>
      rw [render, renderFields_eq] at hd ⊢
      obtain ⟨deepest, rfl⟩ := Nat.exists_eq_succ_of_ne_zero
        (Nat.ne_of_gt (Nat.lt_of_lt_of_le length_bracket_pos hd))
      obtain ⟨inner, hinner, hread⟩ := @readBracket_rendered _ (readField (readValue deepest))
        (fieldText ascii (depth + 1)) '\x7b' '\x7d' (.inr rfl) depth fields fun field hm => by
          have hlength := Nat.lt_of_lt_of_le (length_lt_bracket (List.mem_map_of_mem hm)) hd
          have hvalue := length_le_fieldText ascii (depth + 1) field
          exact ⟨opens_fieldText ascii _ field, readField_rendered ascii (depth + 1)
            (opens_render (hf field hm) ascii _) (ih field hm _ _ (by omega))⟩
      intro rest _
      rw [hinner, List.cons_append, readValue, hread, Option.map_some]
      exact congrArg (fun fields => some (object fields, rest)) (lastOfEach_of_nodup hn)

/-- The text of a plain value with blanks after it is read as this value. -/
theorem read_render {value : Json} (h : Plain value) (ascii : Bool) {after : List Char}
    (ha : ∀ c ∈ after, isBlank c) :
    read (String.ofList (value.render ascii 0 ++ after)) = some value := by
  have hends : EndsNumber after := by
    intro c hc
    have hblank := ha c (List.mem_of_mem_head? hc)
    simp only [isBlank, Bool.or_eq_true, beq_iff_eq] at hblank
    rcases hblank with ((rfl | rfl) | rfl) | rfl <;> decide
  have hlength : (value.render ascii 0).length ≤
      (String.ofList (value.render ascii 0 ++ after)).length := by
    rw [String.length_ofList, List.length_append]
    omega
  have hafter : skipBlanks after = [] := by
    rw [skipBlanks, ← List.append_nil after, List.dropWhile_append_of_pos ha]
    rfl
  rw [read, String.toList_ofList, (opens_render h ascii 0).skipBlanks,
    readValue_render h ascii 0 _ hlength after hends]
  simp only [bind, Option.bind_some, hafter, List.isEmpty_nil, ↓reduceIte]

/-- Both texts of a plain value are read as this value. -/
theorem read_texts {value : Json} (h : Plain value) : read value.fileText = some value
    ∧ read (value.displayText ++ "\n") = some value := by
  constructor
  · have hread := @read_render value h true [] (fun _ hc => nomatch hc)
    rwa [List.append_nil] at hread
  · have hread := @read_render value h false ['\n'] (by simp [isBlank])
    rw [String.ofList_append] at hread
    exact hread

end SdlAssembly.Report.Json
