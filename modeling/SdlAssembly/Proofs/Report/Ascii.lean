import SdlAssembly.Proofs.Report.Reading
import SdlAssembly.Text.Utf8

/-!
# Reports in files

A text for files has ASCII characters only, whatever its strings have. So each of its characters is
one byte, and what is decoded from the bytes of a file is read as the value that was written.
-/

namespace SdlAssembly.Report.Json

open Text Grammar Lexer

def IsAscii (cs : List Char) : Prop := ∀ c ∈ cs, c.toNat < 0x80

instance : DecidablePred IsAscii := fun cs => List.decidableBAll _ cs

theorem IsAscii.cons {c : Char} {cs : List Char} (hc : c.toNat < 0x80) (h : IsAscii cs) :
    IsAscii (c :: cs) := List.forall_mem_cons.mpr ⟨hc, h⟩

theorem IsAscii.append {cs ds : List Char} (hc : IsAscii cs) (hd : IsAscii ds) :
    IsAscii (cs ++ ds) :=
  fun c hm => (List.mem_append.mp hm).elim (hc c) (hd c)

theorem IsAscii.flatMap {α : Type} {items : List α} {f : α → List Char}
    (h : ∀ item ∈ items, IsAscii (f item)) : IsAscii (items.flatMap f) := by
  intro c hc
  obtain ⟨item, hm, hc⟩ := List.mem_flatMap.mp hc
  exact h item hm c hc

/-! ## Bytes -/

theorem byteArray_toList (bytes : ByteArray) : bytes.toList = bytes.data.toList := by
  have hloop : ∀ i taken, ByteArray.toList.loop bytes i taken =
      taken.reverse ++ bytes.data.toList.drop i := by
    intro i taken
    induction i, taken using ByteArray.toList.loop.induct bytes with
    | case1 i taken hi ih =>
        have hlength : i < bytes.data.toList.length := by simpa using hi
        have hget : bytes.get! i = bytes.data.toList[i] := getElem!_pos bytes.data i hlength
        rw [ByteArray.toList.loop, if_pos hi, ih, List.drop_eq_getElem_cons hlength, hget]
        simp
    | case2 i taken hi =>
        have hlength : bytes.data.toList.length ≤ i := by simpa using hi
        rw [ByteArray.toList.loop, if_neg hi, List.drop_eq_nil_of_le hlength, List.append_nil]
  rw [ByteArray.toList, hloop]
  rfl

theorem toUTF8_ofList (cs : List Char) :
    (String.ofList cs).toUTF8.toList = cs.flatMap String.utf8EncodeChar := by
  rw [byteArray_toList]
  exact List.toList_data_toByteArray

/-- ASCII characters are one byte each. -/
theorem flatMap_utf8EncodeChar {cs : List Char} (h : IsAscii cs) :
    cs.flatMap String.utf8EncodeChar = cs.map fun c => UInt8.ofNat c.toNat := by
  induction cs with
  | nil => rfl
  | cons c cs ih =>
      obtain ⟨hc, h⟩ := List.forall_mem_cons.mp h
      have hone : String.utf8EncodeChar c = [UInt8.ofNat c.toNat] := if_pos (Nat.le_of_lt_succ hc)
      rw [List.flatMap_cons, hone, ih h, List.map_cons, List.singleton_append]

theorem decodeFrom_ascii {cs : List Char} (h : IsAscii cs) {fuel : Nat} (hf : cs.length ≤ fuel)
    (offset : Nat) :
    Utf8.decodeFrom fuel offset (cs.map fun c => UInt8.ofNat c.toNat) = .ok cs := by
  induction cs generalizing fuel offset with
  | nil => cases fuel <;> rfl
  | cons c cs ih =>
      obtain ⟨hc, h⟩ := List.forall_mem_cons.mp h
      obtain ⟨fuel, rfl⟩ := Nat.exists_eq_succ_of_ne_zero (Nat.ne_of_gt (Nat.zero_lt_of_lt hf))
      have hbyte : (UInt8.ofNat c.toNat).toNat = c.toNat := Nat.mod_eq_of_lt (by omega)
      have hlead : Utf8.lead? (UInt8.ofNat c.toNat) = some (0, c.toNat) := by
        rw [Utf8.lead?, hbyte]
        exact if_pos hc
      have halone : ∀ lead rest, Utf8.following lead 0 rest = [] := by
        intro lead rest
        cases rest <;> rfl
      rw [List.map_cons, Utf8.decodeFrom, hlead]
      simp only [halone, Nat.not_lt_zero, ↓reduceIte, List.drop_zero,
        ih h (Nat.le_of_succ_le_succ hf), List.length_nil]
      rw [Utf8.character, List.foldl_nil, Char.ofNat_toNat]
      rfl

theorem decode_ascii {cs : List Char} (h : IsAscii cs) :
    Utf8.decode (String.ofList cs).toUTF8.toList = .ok cs := by
  rw [toUTF8_ofList, flatMap_utf8EncodeChar h]
  exact decodeFrom_ascii h (by rw [List.length_map]) 0

/-! ## Texts -/

theorem ascii_hex (digits n : Nat) : IsAscii (Literal.hex digits n) := by
  have hdigit : ∀ d < 16, (Literal.hexDigit d).toNat < 0x80 := by decide
  induction digits generalizing n with
  | zero => exact fun c hc => nomatch hc
  | succ digits ih =>
      have hlast := hdigit (n % 16) (Nat.mod_lt n (by decide))
      exact (ih (n / 16)).append (List.forall_mem_singleton.mpr hlast)

theorem ascii_escapeUnit (unit : Nat) : IsAscii (escapeUnit unit) :=
  .cons (by decide) (.cons (by decide) (ascii_hex 4 unit))

/-- What is no ASCII character is escaped. -/
theorem ascii_encodeChar (c : Char) : IsAscii (encodeChar true c) := by
  simp only [encodeChar]
  -- the characters with a short form
  iterate 7
    split
    · decide
  split
  · exact ascii_escapeUnit _
  split
  · exact .flatMap fun unit _ => ascii_escapeUnit unit
  · rename_i hn
    simp only [Bool.true_and, decide_eq_true_eq, Nat.not_le] at hn
    exact List.forall_mem_singleton.mpr hn

theorem ascii_quote (text : String) : IsAscii (quote true text) :=
  .append (.cons (by decide) (.flatMap fun c _ => ascii_encodeChar c)) (by decide)

theorem ascii_newline (depth : Nat) : IsAscii (newline depth) := by
  refine .cons (by decide) fun c hc => ?_
  rw [(List.mem_replicate.mp hc).2]
  decide

theorem ascii_bracket {opening closing : Char} (ho : opening.toNat < 0x80)
    (hc : closing.toNat < 0x80) (depth : Nat) {texts : List (List Char)}
    (h : ∀ text ∈ texts, IsAscii text) : IsAscii (bracket opening closing depth texts) := by
  have hclosing : IsAscii [closing] := List.forall_mem_singleton.mpr hc
  cases texts with
  | nil => exact .cons ho hclosing
  | cons first others =>
      obtain ⟨hfirst, h⟩ := List.forall_mem_cons.mp h
      have hothers : IsAscii (others.flatMap (separated (depth + 1))) :=
        .flatMap fun text hm => .append (.cons (by decide) (ascii_newline _)) (h text hm)
      rw [bracket_cons]
      exact .cons ho ((ascii_newline _).append
        (hfirst.append (hothers.append ((ascii_newline _).append hclosing))))

theorem ascii_render {value : Json} (h : Plain value) (depth : Nat) :
    IsAscii (value.render true depth) := by
  induction h generalizing depth with
  | null => exact (by decide : IsAscii "null".toList)
  | boolean value =>
      cases value with
      | true => exact (by decide : IsAscii "true".toList)
      | false => exact (by decide : IsAscii "false".toList)
  | int value =>
      obtain ⟨m, ht, -⟩ := exists_numeral value
      have hmarks : IsAscii ['-', '+', '.', 'e', 'E'] := by decide
      rw [render, ht]
      intro c hc
      rcases m.mem_text c hc with hd | hm
      · have hdigit : 48 ≤ c.toNat ∧ c.toNat ≤ 57 := by
          simpa [isDigit, Char.le_def, UInt32.le_iff_toNat_le] using hd
        omega
      · exact hmarks c hm
  | string text => exact ascii_quote text
  | @list items hi ih =>
      rw [render, renderItems_eq]
      exact ascii_bracket (by decide) (by decide) depth
        (List.forall_mem_map.mpr fun item hm => ih item hm _)
  | @object fields hn hf ih =>
      rw [render, renderFields_eq]
      refine ascii_bracket (by decide) (by decide) depth
        (List.forall_mem_map.mpr fun field hm => ?_)
      exact (ascii_quote field.1).append (.cons (by decide) (.cons (by decide) (ih field hm _)))

/-! ## Files -/

/-- The value in the bytes of a file. -/
def readBytes (bytes : List UInt8) : Option Json :=
  (Utf8.decode bytes).toOption.bind fun cs => read (String.ofList cs)

theorem readBytes_fileText {value : Json} (h : Plain value) :
    readBytes value.fileText.toUTF8.toList = some value := by
  rw [readBytes, fileText, decode_ascii (ascii_render h 0)]
  exact (read_texts h).1

end SdlAssembly.Report.Json
