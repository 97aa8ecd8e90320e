import Mathlib

/-!
# Valid UTF-8 of concatenations

UTF-8 is self-synchronising: a valid text followed by more bytes is valid exactly
when the rest is, and a text can be cut before any byte that starts a character.
So joining texts with a separator neither repairs nor spoils them (`join_iff`).  What
is joined in front can be seen in the text (`join_eq_join_append_iff`).
-/

namespace Utf8

variable {a b sep : ByteArray}

/-- After a valid text only the rest matters. -/
theorem append_iff (ha : a.IsValidUTF8) : (a ++ b).IsValidUTF8 ↔ b.IsValidUTF8 := by
  obtain ⟨m, rfl⟩ := ha
  induction m with
  | nil => simp
  | cons c m ih =>
      rw [List.utf8Encode_cons, ByteArray.append_assoc,
        ByteArray.isValidUTF8_utf8Encode_singleton_append_iff]
      exact ih

/-- A valid text can be cut before the first byte of a character. -/
theorem left_of_append (h : (a ++ b).IsValidUTF8) (hb : 0 < b.size)
    (hfirst : b[0].IsUTF8FirstByte) : a.IsValidUTF8 := by
  let s := String.ofByteArray (a ++ b) h
  have hlt : (⟨a.size⟩ : String.Pos.Raw) < s.rawEndPos := by
    show a.size < (a ++ b).size
    rw [ByteArray.size_append]
    omega
  have hbyte : (s.getUTF8Byte ⟨a.size⟩ hlt).IsUTF8FirstByte := by
    show ((a ++ b)[a.size]).IsUTF8FirstByte
    simpa [ByteArray.getElem_append_right (Nat.le_refl a.size)] using hfirst
  have hvalid := String.Pos.Raw.isValid_iff_isUTF8FirstByte.2 (Or.inr ⟨hlt, hbyte⟩)
  have hcut := (String.Pos.Raw.isValid_iff_isValidUTF8_extract_zero.1 hvalid).2
  rwa [show s.toByteArray = a ++ b from rfl, ByteArray.extract_append_eq_left rfl] at hcut

/-- Texts joined by a separator. -/
def join (sep : ByteArray) : List ByteArray → ByteArray
  | [] => .empty
  | [x] => x
  | x :: y :: rest => x ++ (sep ++ join sep (y :: rest))

theorem join_append {l l' : List ByteArray} (hl : l ≠ []) (hl' : l' ≠ []) :
    join sep (l ++ l') = join sep l ++ (sep ++ join sep l') := by
  induction l using join.induct with
  | case1 => exact absurd rfl hl
  | case2 x =>
      cases l' with
      | nil => exact absurd rfl hl'
      | cons y rest => rfl
  | case3 x y rest ih =>
      rw [List.cons_append, List.cons_append, join, ← List.cons_append, ih (by simp), join]
      simp only [ByteArray.append_assoc]

/-- Only the empty text, alone, joins to nothing. -/
theorem join_eq_empty_iff (hpos : 0 < sep.size) (l : List ByteArray) :
    join sep l = .empty ↔ l = [] ∨ l = [.empty] := by
  induction l using join.induct with
  | case1 => simp [join]
  | case2 x => simp [join]
  | case3 x y rest ih =>
      refine iff_of_false ?_ (by simp)
      intro h
      have hsize := congrArg ByteArray.size h
      rw [join, ByteArray.size_append, ByteArray.size_append, ByteArray.size_empty] at hsize
      omega

/-- Texts in front of a list change what it joins to, unless the list is empty and the
one text in front is too. -/
theorem join_eq_join_append_iff (hpos : 0 < sep.size) (l l' : List ByteArray) :
    join sep l' = join sep (l ++ l') ↔ l = [] ∨ l = [.empty] ∧ l' = [] := by
  by_cases hl : l = []
  · simp [hl]
  · by_cases hl' : l' = []
    · subst hl'
      rw [List.append_nil, eq_comm]
      simpa [hl, join] using join_eq_empty_iff hpos l
    · refine iff_of_false ?_ (by simp [hl, hl'])
      intro h
      have hsize := congrArg ByteArray.size h
      rw [join_append hl hl', ByteArray.size_append, ByteArray.size_append] at hsize
      omega

/-- Joining with a separator that is itself a text is valid exactly when every
part is. -/
theorem join_iff (hsep : sep.IsValidUTF8) (hpos : 0 < sep.size) (hfirst : sep[0].IsUTF8FirstByte)
    (l : List ByteArray) : (join sep l).IsValidUTF8 ↔ ∀ x ∈ l, x.IsValidUTF8 := by
  induction l using join.induct with
  | case1 => simp [join, ByteArray.isValidUTF8_empty]
  | case2 x => simp [join]
  | case3 x y rest ih =>
      rw [join, List.forall_mem_cons, ← ih]
      constructor
      · intro h
        have hpos' : 0 < (sep ++ join sep (y :: rest)).size := by
          rw [ByteArray.size_append]; omega
        have hx : x.IsValidUTF8 :=
          left_of_append h hpos' (by rwa [ByteArray.getElem_append_left hpos])
        exact ⟨hx, (append_iff hsep).1 ((append_iff hx).1 h)⟩
      · rintro ⟨hx, hrest⟩
        exact hx.append (hsep.append hrest)

end Utf8
