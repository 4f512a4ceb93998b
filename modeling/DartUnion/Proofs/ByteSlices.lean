/-!
# Slices of a text by bytes

A part of a text can be named by the bytes at which it starts and ends. Such a slice exists only
when the two are in order, within the text, and at the ends of characters (`byteSlice?`). A scan
that adds up the sizes of the characters that it passes only ever holds such numbers.

* `byteSlice?_append`, `byteSlice?_append_end`: the slice between two texts, and the one up to the
  end.
* `byteSlice?_eq_some_iff`: these are all the slices that exist.
-/

namespace DartUnion.Text

open String

/-- The text from byte `i` up to byte `j`. There is none when the bytes are out of order or out of
range, or when one of them lies within a character. -/
def byteSlice? (text : String) (i j : Nat) : Option String :=
  if h : Pos.Raw.IsValid text ⟨i⟩ ∧ Pos.Raw.IsValid text ⟨j⟩ ∧ i ≤ j then
    some (text.slice ⟨⟨i⟩, h.1⟩ ⟨⟨j⟩, h.2.1⟩ h.2.2).copy
  else none

/-- **The slices of a text** are what stands between two texts. -/
theorem byteSlice?_eq_some_iff {text t : String} {i j : Nat} :
    byteSlice? text i j = some t ↔
      ∃ a b, text = a ++ t ++ b ∧ i = a.utf8ByteSize ∧ j = (a ++ t).utf8ByteSize := by
  unfold byteSlice?
  constructor
  · intro h
    split at h
    · next hv =>
      obtain ⟨a, b, hi, hj⟩ := copy_slice_eq_iff_splits.1 ⟨hv.2.2, Option.some.inj h⟩
      refine ⟨a, b, hj.eq_append, ?_, ?_⟩
      · exact congrArg Pos.Raw.byteIdx hi.offset_eq_rawEndPos
      · exact congrArg Pos.Raw.byteIdx hj.offset_eq_rawEndPos
    · cases h
  · rintro ⟨a, b, rfl, rfl, rfl⟩
    have hi : Pos.Raw.IsValid (a ++ t ++ b) ⟨a.utf8ByteSize⟩ :=
      Pos.Raw.isValid_iff_exists_append.2 ⟨a, t ++ b, String.append_assoc, rfl⟩
    have hj : Pos.Raw.IsValid (a ++ t ++ b) ⟨(a ++ t).utf8ByteSize⟩ :=
      Pos.Raw.isValid_iff_exists_append.2 ⟨a ++ t, b, rfl, rfl⟩
    have hslice : ∃ hle, ((a ++ t ++ b).slice ⟨_, hi⟩ ⟨_, hj⟩ hle).copy = t :=
      copy_slice_eq_iff_splits.2 ⟨a, b, ⟨String.append_assoc, rfl⟩, ⟨rfl, rfl⟩⟩
    obtain ⟨hle, ht⟩ := hslice
    rw [dif_pos ⟨hi, hj, hle⟩]
    exact congrArg some ht

/-- The slice between two texts. -/
theorem byteSlice?_append (a t b : String) :
    byteSlice? (a ++ t ++ b) a.utf8ByteSize (a ++ t).utf8ByteSize = some t :=
  byteSlice?_eq_some_iff.2 ⟨a, b, rfl, rfl, rfl⟩

/-- The slice up to the end. -/
theorem byteSlice?_append_end (a t : String) :
    byteSlice? (a ++ t) a.utf8ByteSize (a ++ t).utf8ByteSize = some t :=
  byteSlice?_eq_some_iff.2 ⟨a, "", String.append_empty.symm, rfl, rfl⟩

/-- The size of a text grows by the size of the character behind it. -/
theorem utf8ByteSize_append_singleton (a : String) (c : Char) :
    (a ++ String.singleton c).utf8ByteSize = a.utf8ByteSize + c.utf8Size := by
  rw [String.utf8ByteSize_append, String.utf8ByteSize_singleton]

end DartUnion.Text
