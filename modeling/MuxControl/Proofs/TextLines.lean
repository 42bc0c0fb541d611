/-
MuxControl.Proofs.TextLines — what a text that is sent as a line is read
as.

The bytes of a text hold a newline byte just if the text holds a newline
(`newlineByte_mem_encode`), since all bytes of other characters are
printable or above the range of ASCII; the same goes for a carriage
return. So a text without either, sent with a newline behind it, is read
as itself, and what follows is left (`read_encode_line`).
-/
import MuxControl.Console.Query
import MuxControl.Proofs.WireLines

namespace MuxControl.Wire

/-! ## The bytes of a text -/

theorem byteArray_toList_loop (bytes : ByteArray) (i : Nat) (read : List UInt8) :
    ByteArray.toList.loop bytes i read = read.reverse ++ bytes.data.toList.drop i := by
  fun_induction ByteArray.toList.loop bytes i read with
  | case1 i read hlt ih =>
    have hlength : i < bytes.data.toList.length := hlt
    have hget : bytes.get! i = bytes.data.toList[i] := getElem!_pos bytes.data i hlt
    rw [ih, List.drop_eq_getElem_cons hlength, List.reverse_cons, List.append_assoc, hget,
      List.singleton_append]
  | case2 i read hge =>
    rw [List.drop_eq_nil_of_le (Nat.le_of_not_lt hge), List.append_nil]

theorem byteArray_toList (bytes : ByteArray) : bytes.toList = bytes.data.toList := by
  rw [ByteArray.toList, byteArray_toList_loop]
  rfl

theorem encode_eq (text : String) :
    encode text = text.toList.flatMap String.utf8EncodeChar := by
  rw [encode, byteArray_toList, String.toUTF8_eq_toByteArray, ← String.utf8Encode_toList,
    List.utf8Encode, List.toList_data_toByteArray]

theorem encode_append (a b : String) : encode (a ++ b) = encode a ++ encode b := by
  rw [encode_eq, encode_eq, encode_eq, String.toList_append, List.flatMap_append]

theorem decode?_encode (text : String) : decode? (encode text) = some text := by
  have hbytes : (⟨(encode text).toArray⟩ : ByteArray) = text.toByteArray := by
    rw [encode, byteArray_toList, String.toUTF8_eq_toByteArray, Array.toArray_toList]
  rw [decode?, hbytes, String.fromUTF8?, dif_pos text.isValidUTF8]
  rfl

/-- Text that stands in a file is had from it. -/
theorem text_encode (text : String) : (FileContent.bytes (encode text)).text = .ok text := by
  have hread : String.fromUTF8? ⟨(encode text).toArray⟩ = some text := decode?_encode text
  unfold FileContent.text
  simp only [hread]

/-- A byte of the ASCII range stands for nothing but its character. -/
theorem mem_utf8EncodeChar {n : Nat} (hn : n < 128) (c : Char) :
    UInt8.ofNat n ∈ String.utf8EncodeChar c ↔ c = Char.ofNat n := by
  have hsame : c = Char.ofNat n ↔ c.val.toNat = n := by
    have hvalid : (Char.ofNat n).toNat = n := by
      rw [Char.ofNat, dif_pos (.inl (by omega))]
      rfl
    rw [← Char.toNat_inj, hvalid]
    rfl
  have hbyte : ∀ m : Nat, m < 256 → (UInt8.ofNat n = UInt8.ofNat m ↔ n = m) := by
    intro m hm
    rw [← UInt8.toNat_inj, UInt8.toNat_ofNat', UInt8.toNat_ofNat']
    omega
  rw [hsame, String.utf8EncodeChar]
  split_ifs with hone htwo hthree
  · rw [List.mem_singleton, hbyte _ (by omega), eq_comm]
  all_goals
    simp only [List.mem_cons, List.not_mem_nil, or_false]
    repeat rw [hbyte _ (by omega)]
    omega

theorem mem_encode {n : Nat} (hn : n < 128) (text : String) :
    UInt8.ofNat n ∈ encode text ↔ Char.ofNat n ∈ text.toList := by
  rw [encode_eq, List.mem_flatMap]
  constructor
  · rintro ⟨c, hc, hbyte⟩
    exact (mem_utf8EncodeChar hn c).mp hbyte ▸ hc
  · exact fun hmem => ⟨_, hmem, (mem_utf8EncodeChar hn _).mpr rfl⟩

theorem newlineByte_mem_encode {text : String} :
    newlineByte ∈ encode text ↔ '\n' ∈ text.toList :=
  mem_encode (show 10 < 128 by decide) text

/-- No carriage return is taken off a text that does not end in one. -/
theorem withoutReturn_encode {text : String} (hreturn : text.toList.getLast? ≠ some '\r') :
    withoutReturn (encode text) = encode text := by
  refine if_neg fun hlast => ?_
  rw [encode_eq] at hlast
  rcases List.eq_nil_or_concat text.toList with hnil | ⟨front, c, hconcat⟩
  · rw [hnil] at hlast
    cases hlast
  rw [List.concat_eq_append] at hconcat
  have hc : c ≠ '\r' := by
    rintro rfl
    rw [hconcat, List.getLast?_concat] at hreturn
    exact hreturn rfl
  have hne : String.utf8EncodeChar c ≠ [] := by
    rw [String.utf8EncodeChar]
    split_ifs <;> exact List.cons_ne_nil _ _
  rw [hconcat, List.flatMap_append, List.flatMap_singleton, List.getLast?_append,
    List.getLast?_eq_some_getLast hne, Option.some_or] at hlast
  have hbyte : returnByte ∈ String.utf8EncodeChar c :=
    Option.some.inj hlast ▸ List.getLast_mem hne
  exact hc ((mem_utf8EncodeChar (show 13 < 128 by decide) c).mp hbyte)

/-! ## Texts without a newline, sent as lines -/

section Lines

variable {text : String} (hnewline : '\n' ∉ text.toList)

theorem encode_line (text : String) : encode (text ++ "\n") = encode text ++ [newlineByte] := by
  rw [encode_append]
  congr 1
  decide +kernel

include hnewline

theorem beforeNewline_encode_line (more : Bytes) :
    beforeNewline (encode (text ++ "\n") ++ more) = encode text := by
  rw [encode_line, List.append_assoc,
    beforeNewline_append_of_not_mem (mt newlineByte_mem_encode.mp hnewline)]
  exact List.append_nil _

/-- **A line is read as its text**, and what follows it is left. -/
theorem read_encode_line {limit : Nat} (hreturn : text.toList.getLast? ≠ some '\r')
    (hfits : (encode text).length ≤ limit) (more : Bytes) :
    firstLine limit (encode (text ++ "\n") ++ more) = .ok (some text) ∧
      behindLine limit (encode (text ++ "\n") ++ more) = more := by
  have hbefore := beforeNewline_encode_line hnewline more
  have hmem : newlineByte ∈ encode (text ++ "\n") ++ more := by simp [encode_line]
  constructor
  · unfold firstLine lineOf
    simp only [hbefore, if_neg (List.ne_nil_of_mem hmem), if_neg (Nat.not_lt.mpr hfits),
      if_pos hmem, withoutReturn_encode hreturn, decode?_encode]
  · rw [behindLine, hbefore, Nat.min_eq_left hfits, encode_line]
    exact List.drop_left' (by simp)

/-- The newline byte of a line is its last byte and no other. -/
theorem framed_encode_line :
    (encode (text ++ "\n")).count newlineByte = 1 ∧
      (encode (text ++ "\n")).getLast? = some newlineByte := by
  have hnone : (encode text).count newlineByte = 0 :=
    List.count_eq_zero.mpr (mt newlineByte_mem_encode.mp hnewline)
  rw [encode_line, List.count_append, hnone, List.getLast?_concat]
  exact ⟨rfl, rfl⟩

/-- A line at the head of a stream is split off as the greeting. -/
theorem splitGreeting_encode_line (more : Bytes) :
    Console.splitGreeting (encode (text ++ "\n") ++ more) = (encode (text ++ "\n"), more) := by
  have hbefore : (encode (text ++ "\n") ++ more).takeWhile (· ≠ newlineByte) = encode text :=
    beforeNewline_encode_line hnewline more
  have hlength : (encode (text ++ "\n")).length = (encode text).length + 1 := by
    rw [encode_line, List.length_append]
    rfl
  unfold Console.splitGreeting
  simp only [hbefore, ← hlength, List.take_left, List.drop_left]

end Lines

end MuxControl.Wire
