import SchemaDiagram.Proofs.Text.Line
import SchemaDiagram.Text.Decoding

/-!
# Text that went through a file

A text that is kept in UTF-8 comes back as it was, but for its line ends, which are made uniform,
and for the byte order mark of a file. What becomes of bytes that are not UTF-8 makes no difference
to it (`ofStream?_toUTF8`). Neither change is seen by somebody who reads lines and drops a mark
himself: the lines of a text are the same when its line ends were made uniform
(`lines_unifyLineEnds`), and the mark and the line ends do not get into each other's way
(`dropMark_unifyLineEnds`). Only two marks in a row could be told apart, of which the file takes one
and the reader the other.

A stream that is not UTF-8 is taken apart into characters and stray bytes without loss
(`bytesOf_units`), and so characters that stand for bytes are there just if it is not
(`standIns_eq_nil_iff`).
-/

namespace SchemaDiagram
namespace Text

/-! ## Line ends -/

/-- **Uniform line ends end the same lines.** -/
theorem lines_unifyLineEnds (s : List Char) : lines (unifyLineEnds s) = lines s := by
  fun_induction unifyLineEnds s with
  | case1 => rfl
  | case2 r ih => rw [lines_feed, lines_crlf, ih]
  | case3 r hr ih =>
    have hsplit : ¬ ('\r' = '\r' ∧ r.head? = some '\n') := by
      rintro ⟨-, hhead⟩
      obtain ⟨r', rfl⟩ := List.head?_eq_some_iff.mp hhead
      exact hr r' rfl
    rw [lines_feed, lines_terminator (by decide) hsplit, ih]
  | case4 c r _ hc ih =>
    have hreturn : c ≠ '\r' := fun h => hc h
    cases hterminator : isTerminator c with
    | false => rw [lines_cons hterminator, lines_cons hterminator, ih]
    | true =>
      rw [lines_terminator hterminator fun h => hreturn h.1,
        lines_terminator hterminator fun h => hreturn h.1, ih]

/-! ## The byte order mark -/

theorem dropMark_of_ne {c : Char} (hc : c ≠ byteOrderMark) (s : List Char) :
    dropMark (c :: s) = c :: s :=
  if_neg hc

theorem dropMark_unifyLineEnds (s : List Char) :
    dropMark (unifyLineEnds s) = unifyLineEnds (dropMark s) := by
  cases s with
  | nil => rfl
  | cons c s =>
    by_cases hc : c = byteOrderMark
    · subst hc
      rw [unifyLineEnds, dropMark_cons, dropMark_cons, if_pos rfl, if_pos rfl] <;>
        simp [byteOrderMark]
    · rw [dropMark_of_ne hc]
      -- the text starts with its first character or with a line feed, and neither is a mark
      rw [unifyLineEnds.eq_def]
      split
      · next heq => simp at heq
      · exact dropMark_of_ne (by decide) _
      · exact dropMark_of_ne (by decide) _
      · next heq =>
        obtain ⟨rfl, rfl⟩ := List.cons.inj heq
        exact dropMark_of_ne hc _

/-- A text that does not start with two marks has no mark left when one is dropped. -/
theorem dropMark_dropMark {s : List Char} (h : ¬ [byteOrderMark, byteOrderMark] <+: s) :
    dropMark (dropMark s) = dropMark s := by
  cases s with
  | nil => rfl
  | cons c s =>
    by_cases hc : c = byteOrderMark
    · subst hc
      rw [dropMark_cons, if_pos rfl]
      cases s with
      | nil => rfl
      | cons d s =>
        refine dropMark_of_ne (fun hd => h ?_) s
        rw [hd]
        exact ⟨s, rfl⟩
    · rw [dropMark_of_ne hc, dropMark_of_ne hc]

/-! ## Bytes -/

theorem fromUTF8?_toUTF8 (t : String) : String.fromUTF8? t.toUTF8 = some t := by
  rw [String.fromUTF8?, String.toUTF8_eq_toByteArray, dif_pos t.isValidUTF8]
  rfl

theorem exists_toUTF8_iff {bytes : ByteArray} :
    (∃ t : String, t.toUTF8 = bytes) ↔ String.fromUTF8? bytes ≠ none := by
  constructor
  · rintro ⟨t, rfl⟩
    rw [fromUTF8?_toUTF8]
    exact Option.some_ne_none t
  · intro h
    rw [String.fromUTF8?] at h
    split at h
    · next hvalid => exact ⟨.fromUTF8 bytes hvalid, rfl⟩
    · exact absurd rfl h

/-! ### What is found in a stream -/

/-- The bytes of what is found in a stream. -/
def bytesOf (us : List (Char ⊕ UInt8)) : List UInt8 :=
  us.flatMap (Sum.elim String.utf8EncodeChar fun b => [b])

theorem size_utf8EncodeChar (c : Char) :
    (String.utf8EncodeChar c).toByteArray.size = c.utf8Size := by
  rw [List.size_toByteArray, String.length_utf8EncodeChar]

theorem unitsWithin_utf8Encode {n : Nat} {s : List Char} (h : s.utf8Encode.size ≤ n) :
    unitsWithin n s.utf8Encode = s.map .inl := by
  induction s generalizing n with
  | nil => cases n <;> rfl
  | cons c s ih =>
    have hcons : (c :: s).utf8Encode = (String.utf8EncodeChar c).toByteArray ++ s.utf8Encode := by
      rw [List.utf8Encode_cons, List.utf8Encode_singleton]
    have hsize : (c :: s).utf8Encode.size = c.utf8Size + s.utf8Encode.size := by
      rw [hcons, ByteArray.size_append, size_utf8EncodeChar]
    have hrest : (c :: s).utf8Encode.extract c.utf8Size (c :: s).utf8Encode.size =
        s.utf8Encode := by
      rw [hcons]
      exact ByteArray.extract_append_eq_right (size_utf8EncodeChar c).symm ByteArray.size_append
    have hpos := c.utf8Size_pos
    cases n with
    | zero => omega
    | succ n =>
      simp only [unitsWithin, List.utf8DecodeChar?_utf8Encode_cons, hrest]
      rw [ih (by omega), List.map_cons]

theorem bytesOf_unitsWithin {n : Nat} {bytes : ByteArray} (h : bytes.size ≤ n) :
    bytesOf (unitsWithin n bytes) = bytes.data.toList := by
  induction n generalizing bytes with
  | zero =>
    have hempty : bytes.data.toList = [] := by
      rw [← List.length_eq_zero_iff]
      exact Nat.le_zero.mp h
    rw [hempty]
    rfl
  | succ n ih =>
    rw [unitsWithin]
    split
    · next _ c hc =>
      have hle := ByteArray.le_size_of_utf8DecodeChar?_eq_some hc
      have hpos := c.utf8Size_pos
      have hsplit := congrArg (·.data.toList) (ByteArray.eq_of_utf8DecodeChar?_eq_some hc)
      have hrest : bytesOf (unitsWithin n (bytes.extract c.utf8Size bytes.size)) = _ :=
        ih (by rw [ByteArray.size_extract]; omega)
      rw [hsplit, bytesOf, List.flatMap_cons, ← bytesOf, hrest]
      simp
    · next hnil => rw [hnil]; rfl
    · next _ b bs _ hcons =>
      have hsize : bytes.size = bs.length + 1 := by
        rw [ByteArray.size, ← Array.length_toList, hcons, List.length_cons]
      have hbehind : (bytes.extract 1 bytes.size).data.toList = bs := by
        simp [ByteArray.data_extract, Array.toList_extract, hcons, hsize]
      have hrest : bytesOf (unitsWithin n (bytes.extract 1 bytes.size)) = _ :=
        ih (by rw [ByteArray.size_extract]; omega)
      rw [hcons, bytesOf, List.flatMap_cons, ← bytesOf, hrest, hbehind]
      rfl

/-- **Nothing is lost of a stream**, whether or not it is UTF-8. -/
theorem bytesOf_units (bytes : ByteArray) : bytesOf (units bytes) = bytes.data.toList :=
  bytesOf_unitsWithin (Nat.le_refl _)

/-- **A text in UTF-8 has no stray bytes.** -/
theorem units_toUTF8 (t : String) : units t.toUTF8 = t.toList.map .inl := by
  have hencode : t.toUTF8 = t.toList.utf8Encode := by
    rw [String.toUTF8_eq_toByteArray, ← String.toByteArray_ofList, String.ofList_toList]
  rw [units, hencode]
  exact unitsWithin_utf8Encode (Nat.le_refl _)

/-- What has no stray bytes is a text in UTF-8. -/
theorem toUTF8_of_units {bytes : ByteArray} {s : List Char} (h : units bytes = s.map .inl) :
    (String.ofList s).toUTF8 = bytes := by
  have hbytes := bytesOf_units bytes
  rw [h, bytesOf, List.flatMap_map] at hbytes
  have hencode : s.utf8Encode.data.toList = bytes.data.toList := by
    rw [← hbytes, List.utf8Encode, List.data_toByteArray]
    rfl
  rw [String.toUTF8_eq_toByteArray, String.toByteArray_ofList]
  exact ByteArray.ext (Array.toList_inj.mp hencode)

/-! ### Streams -/

theorem Decoded.ofUnits_map_inl (standIn : UInt8 → Char) (s : List Char) :
    ofUnits standIn (s.map .inl) = { text := String.ofList (unifyLineEnds s) } := by
  have htext : (s.map Sum.inl).map (Sum.elim id standIn) = s := by
    rw [List.map_map]
    exact List.map_id s
  have hnone :
      (s.map Sum.inl).filterMap (fun u : Char ⊕ UInt8 => u.getRight?.map standIn) = [] := by
    rw [List.filterMap_map]
    exact List.filterMap_eq_nil_iff.mpr fun _ _ => rfl
  rw [ofUnits, htext, hnone]

theorem Decoded.standIns_ofUnits_eq_nil_iff {standIn : UInt8 → Char} {us : List (Char ⊕ UInt8)} :
    (ofUnits standIn us).standIns = [] ↔ ∃ s : List Char, us = s.map .inl := by
  constructor
  · intro h
    rw [ofUnits, List.filterMap_eq_nil_iff] at h
    induction us with
    | nil => exact ⟨[], rfl⟩
    | cons u us ih =>
      obtain ⟨hu, hus⟩ := List.forall_mem_cons.mp h
      obtain ⟨s, rfl⟩ := ih hus
      cases u with
      | inl c => exact ⟨c :: s, rfl⟩
      | inr b => exact nomatch hu
  · rintro ⟨s, rfl⟩
    rw [ofUnits_map_inl]

/-- **A text on a stream** is read with its line ends made uniform, whatever becomes of stray
bytes. -/
theorem ofStream?_toUTF8 (errors : ErrorHandler) (t : String) :
    ofStream? errors t.toUTF8 = some { text := String.ofList (unifyLineEnds t.toList) } := by
  cases errors with
  | strict => rw [ofStream?, fromUTF8?_toUTF8, Option.map_some]
  | escape standIn => rw [ofStream?, units_toUTF8, Decoded.ofUnits_map_inl]

theorem ofStream?_eq_none_iff {errors : ErrorHandler} {bytes : ByteArray} :
    ofStream? errors bytes = none ↔ errors = .strict ∧ String.fromUTF8? bytes = none := by
  cases errors with
  | strict => simp [ofStream?]
  | escape standIn => simp [ofStream?]

theorem fromUTF8?_ne_none_of_strict {bytes : ByteArray} {t : Decoded}
    (h : ofStream? .strict bytes = some t) : String.fromUTF8? bytes ≠ none := by
  intro hnone
  rw [ofStream?_eq_none_iff.mpr ⟨rfl, hnone⟩] at h
  exact nomatch h

/-- **Characters that stand for bytes** are there if the stream is not UTF-8, and only then. -/
theorem standIns_eq_nil_iff {errors : ErrorHandler} {bytes : ByteArray} {t : Decoded}
    (h : ofStream? errors bytes = some t) :
    t.standIns = [] ↔ String.fromUTF8? bytes ≠ none := by
  rw [← exists_toUTF8_iff]
  constructor
  · intro hnone
    cases errors with
    | strict => exact exists_toUTF8_iff.mpr (fromUTF8?_ne_none_of_strict h)
    | escape standIn =>
      obtain rfl := Option.some.inj h
      obtain ⟨s, hs⟩ := Decoded.standIns_ofUnits_eq_nil_iff.mp hnone
      exact ⟨_, toUTF8_of_units hs⟩
  · rintro ⟨s, rfl⟩
    rw [ofStream?_toUTF8, Option.some.injEq] at h
    rw [← h]

/-! ### Files -/

/-- A file that breaks off inside its mark is a text all the same. -/
theorem ofFile?_eq_none_iff {bytes : ByteArray} :
    ofFile? bytes = none ↔
      String.fromUTF8? bytes = none ∧ bytes.data.toList ∉ brokenMarks := by
  unfold ofFile?
  split
  · next htext => simp [htext]
  · next htext => simp [htext]

/-- A text in a file loses its mark besides. -/
theorem ofFile?_toUTF8 (t : String) :
    ofFile? t.toUTF8 =
      some { text := String.ofList (unifyLineEnds (dropMark t.toList)) } := by
  rw [ofFile?, fromUTF8?_toUTF8]

theorem standIns_of_ofFile? {bytes : ByteArray} {t : Decoded} (h : ofFile? bytes = some t) :
    t.standIns = [] := by
  unfold ofFile? at h
  split at h
  · rw [← Option.some.inj h]
  · split at h
    · rw [← Option.some.inj h]
    · exact nomatch h

/-! ### The lines of what was read -/

/-- The lines behind the mark are those of the text, on whichever way it came. -/
theorem lines_dropMark_ofStream? {errors : ErrorHandler} {t : String} {s : Decoded}
    (h : ofStream? errors t.toUTF8 = some s) :
    lines (dropMark s.text.toList) = lines (dropMark t.toList) := by
  rw [ofStream?_toUTF8, Option.some.injEq] at h
  rw [← h, String.toList_ofList, dropMark_unifyLineEnds, lines_unifyLineEnds]

theorem lines_dropMark_ofFile? {t : String} {s : Decoded}
    (hmark : ¬ [byteOrderMark, byteOrderMark] <+: t.toList) (h : ofFile? t.toUTF8 = some s) :
    lines (dropMark s.text.toList) = lines (dropMark t.toList) := by
  rw [ofFile?_toUTF8, Option.some.injEq] at h
  rw [← h, String.toList_ofList, dropMark_unifyLineEnds, dropMark_dropMark hmark,
    lines_unifyLineEnds]

/-! ### Giving text out -/

/-- What is made of a text is written in UTF-8, unless there is a character in it that stands for a
byte. -/
theorem Decoded.encode?_eq_some_iff {t : Decoded} {made : String} {bytes : ByteArray} :
    t.encode? made = some bytes ↔
      (∀ c ∈ made.toList, c ∉ t.standIns) ∧ made.toUTF8 = bytes := by
  rw [encode?]
  split
  · next hstray =>
    refine iff_of_false (Option.some_ne_none bytes ∘ Eq.symm) ?_
    rintro ⟨hnone, -⟩
    obtain ⟨c, hc, hstandIn⟩ := List.any_eq_true.mp hstray
    exact hnone c hc (List.contains_iff_mem.mp hstandIn)
  · next hstray =>
    rw [Option.some.injEq]
    refine ⟨fun h => ⟨fun c hc hstandIn => hstray ?_, h⟩, And.right⟩
    exact List.any_eq_true.mpr ⟨c, hc, List.contains_iff_mem.mpr hstandIn⟩

/-- Two stray bytes behind a letter: the letter alone can be written. -/
example : (ofStream? (.escape fun _ => '?') ⟨#[0x41, 0xE2, 0x82]⟩).map
    (fun t => (t.text, t.encode? t.text, (t.encode? "A").isSome)) = some ("A??", none, true) := by
  decide

theorem Decoded.encode?_of_standIns_eq_nil {t : Decoded} (h : t.standIns = []) (made : String) :
    t.encode? made = some made.toUTF8 :=
  encode?_eq_some_iff.mpr ⟨fun c _ => by rw [h]; exact List.not_mem_nil, rfl⟩

end Text
end SchemaDiagram
