import Calculator.Proofs.Text.Line
import Mathlib.Tactic

/-!
# The bytes of lines

`encode` gives the bytes that encode a text in UTF-8, and `decode?` reads them
(`decode?_eq_some_iff`). A byte that encodes a line feed or a carriage return is part of no other
character, so it does not matter whether a text is cut into lines before or after it is encoded
(`byteLines_encode`), and bytes encode a text if each of their lines does (`exists_eq_encode`).
-/

namespace Calculator.Text

/-- The bytes that encode a text. -/
def encode (l : List Char) : List UInt8 :=
  l.flatMap String.utf8EncodeChar

variable {l m : List Char} {b : List UInt8}

/-- Texts are encoded part by part. -/
lemma encode_append : encode (l ++ m) = encode l ++ encode m :=
  List.flatMap_append

/-- The bytes of a string encode its text. -/
lemma toList_toUTF8 (l : List Char) : (String.ofList l).toUTF8.data.toList = encode l := by
  rw [String.toUTF8, String.toByteArray_ofList, List.utf8Encode, List.data_toByteArray]
  rfl

/-- The bytes of a text are those of its string. -/
lemma toByteArray_encode (l : List Char) : (encode l).toByteArray = (String.ofList l).toByteArray :=
  String.toByteArray_ofList.symm

/-- Bytes differ where their arrays do. -/
lemma toByteArray_injective {b b' : List UInt8} (h : b.toByteArray = b'.toByteArray) : b = b' := by
  have data := congrArg (fun bytes : ByteArray => bytes.data.toList) h
  simpa only [List.data_toByteArray] using data

/-- What is read from bytes is the text that they encode. -/
theorem decode?_eq_some_iff : decode? b = some l ↔ b = encode l := by
  rw [decode?, String.fromUTF8?]
  constructor
  · intro h
    split at h
    · next valid =>
      cases h
      apply toByteArray_injective
      rw [toByteArray_encode, String.ofList_toList]
      rfl
    · cases h
  · rintro rfl
    have valid : (encode l).toByteArray.IsValidUTF8 := ⟨l, rfl⟩
    have same : String.fromUTF8 _ valid = String.ofList l :=
      String.toByteArray_inj.1 (toByteArray_encode l)
    rw [dif_pos valid, Option.map_some, same, String.toList_ofList]

/-- Bytes that are no UTF-8 encode no text. -/
lemma decode?_eq_none_iff : decode? b = none ↔ ¬b.toByteArray.IsValidUTF8 := by
  rw [Option.eq_none_iff_forall_ne_some]
  refine ⟨fun h valid => ?_, fun h l e => h ⟨l, ?_⟩⟩
  · obtain ⟨l, e⟩ := valid
    exact h l (decode?_eq_some_iff.2 (toByteArray_injective e))
  · rw [decode?_eq_some_iff.1 e]
    rfl

/-- A byte below 128 encodes a character by itself. -/
lemma toNat_of_mem_utf8EncodeChar {c : Char} {byte : UInt8} (h : byte ∈ String.utf8EncodeChar c)
    (lt : byte.toNat < 128) : c.toNat = byte.toNat := by
  rw [String.utf8EncodeChar] at h
  have value : c.val.toNat = c.toNat := rfl
  simp only [value] at h
  split_ifs at h with one two three
  · obtain rfl := List.mem_singleton.1 h
    exact (Nat.mod_eq_of_lt (by omega)).symm
  · simp only [List.mem_cons, List.not_mem_nil, or_false] at h
    rcases h with rfl | rfl <;> simp only [UInt8.toNat_ofNat'] at lt <;> omega
  · simp only [List.mem_cons, List.not_mem_nil, or_false] at h
    rcases h with rfl | rfl | rfl <;> simp only [UInt8.toNat_ofNat'] at lt <;> omega
  · simp only [List.mem_cons, List.not_mem_nil, or_false] at h
    rcases h with rfl | rfl | rfl | rfl <;> simp only [UInt8.toNat_ofNat'] at lt <;> omega

/-- A byte below 128 is a character of its own. -/
lemma eq_of_mem_utf8EncodeChar {c d : Char} (lt : d.toNat < 128)
    (h : d.toNat.toUInt8 ∈ String.utf8EncodeChar c) : c = d := by
  have byte : d.toNat.toUInt8.toNat = d.toNat := Nat.mod_eq_of_lt (by omega)
  exact Char.toNat_inj.1 ((toNat_of_mem_utf8EncodeChar h (byte.trans_lt lt)).trans byte)

/-- Only a line feed is encoded with its byte. -/
lemma feed_notMem_encode (h : '\n' ∉ l) : 10 ∉ encode l := by
  intro mem
  obtain ⟨c, hc, byte⟩ := List.mem_flatMap.1 mem
  rw [@eq_of_mem_utf8EncodeChar c '\n' (by decide) byte] at hc
  exact h hc

/-- Only a carriage return at the end is encoded with its byte. -/
lemma carriage_notMem_getLast?_encode (h : '\r' ∉ l.getLast?) : 13 ∉ (encode l).getLast? := by
  intro mem
  rcases List.eq_nil_or_concat' l with rfl | ⟨l, c, rfl⟩
  · cases mem
  · have last : encode [c] = String.utf8EncodeChar c := List.flatMap_singleton _ _
    rw [encode_append, last, List.getLast?_append_of_ne_nil _ String.utf8EncodeChar_ne_nil] at mem
    rw [@eq_of_mem_utf8EncodeChar c '\r' (by decide) (List.mem_of_mem_getLast? mem),
      List.getLast?_concat] at h
    exact h rfl

/-- A text that is not empty has bytes. -/
lemma encode_ne_nil (h : l ≠ []) : encode l ≠ [] := by
  obtain ⟨c, l, rfl⟩ := List.exists_cons_of_ne_nil h
  exact List.append_ne_nil_of_left_ne_nil String.utf8EncodeChar_ne_nil _

/-- The lines of an encoded text are its encoded lines. -/
lemma Cut.encode {ls} (h : Cut '\n' '\r' l ls) :
    Cut 10 13 (Text.encode l) (ls.map Text.encode) := by
  induction h with
  | nil => exact .nil
  | last ne free => exact .last (encode_ne_nil ne) (feed_notMem_encode free)
  | feed free last _ ih =>
    rw [encode_append]
    exact .feed (feed_notMem_encode free) (carriage_notMem_getLast?_encode last) ih
  | carriage free _ ih =>
    rw [encode_append]
    exact .carriage (feed_notMem_encode free) ih

/-- Bytes of a text are cut into its encoded lines. -/
theorem byteLines_encode (l : List Char) : byteLines (encode l) = (lines l).map encode :=
  (cut_iff (by decide)).1 (cut_cutLines (by decide) l).encode

/-- Bytes encode a text if their lines are encoded texts. -/
lemma Cut.exists_eq_encode {texts : List (List Char)} {ls} (h : Cut 10 13 b ls)
    (e : ls = texts.map Text.encode) : ∃ l, b = Text.encode l := by
  induction h generalizing texts with
  | nil => exact ⟨[], rfl⟩
  | last =>
    obtain ⟨line, _, rfl, rfl, -⟩ := List.map_eq_cons_iff.1 e.symm
    exact ⟨line, rfl⟩
  | feed _ _ _ ih =>
    obtain ⟨line, texts, rfl, rfl, e'⟩ := List.map_eq_cons_iff.1 e.symm
    obtain ⟨l, rfl⟩ := ih e'.symm
    exact ⟨line ++ '\n' :: l, by rw [encode_append]; rfl⟩
  | carriage _ _ ih =>
    obtain ⟨line, texts, rfl, rfl, e'⟩ := List.map_eq_cons_iff.1 e.symm
    obtain ⟨l, rfl⟩ := ih e'.symm
    exact ⟨line ++ '\r' :: '\n' :: l, by rw [encode_append]; rfl⟩

/-- Lines are encoded texts up to the first that is none. -/
lemma exists_texts (ls : List (List UInt8)) :
    ∃ texts : List (List Char), ls = texts.map encode ∨
      ∃ line rest, ls = texts.map encode ++ line :: rest ∧ decode? line = none := by
  induction ls with
  | nil => exact ⟨[], .inl rfl⟩
  | cons line ls ih =>
    cases read : decode? line with
    | none => exact ⟨[], .inr ⟨line, ls, rfl, read⟩⟩
    | some l =>
      obtain rfl := decode?_eq_some_iff.1 read
      obtain ⟨texts, rfl | ⟨bad, rest, rfl, unread⟩⟩ := ih
      · exact ⟨l :: texts, .inl rfl⟩
      · exact ⟨l :: texts, .inr ⟨bad, rest, rfl, unread⟩⟩

/-- Bytes that encode no text have a line that encodes none. -/
theorem exists_undecodable_line (h : decode? b = none) :
    ∃ (texts : List (List Char)) (line : List UInt8) (rest : List (List UInt8)),
      byteLines b = texts.map encode ++ line :: rest ∧ decode? line = none := by
  obtain ⟨texts, read | unread⟩ := exists_texts (byteLines b)
  · obtain ⟨l, rfl⟩ := (cut_cutLines (by decide) b).exists_eq_encode read
    rw [decode?_eq_some_iff.2 rfl] at h
    cases h
  · exact ⟨texts, unread⟩

end Calculator.Text
