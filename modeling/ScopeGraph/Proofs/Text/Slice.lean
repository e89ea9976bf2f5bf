import ScopeGraph.Text.Slice

/-!
# Slices within slices

A slice is what lies between two cuts of a text, each between characters.  The size of what lies
before a cut tells where the cut is, so a span within another one has its slice inside the other
slice.  Rows only grow along the text.
-/
set_option autoImplicit false

namespace ScopeGraph

/-- The inner span does not reach out of the outer one. -/
def Span.Within (inner outer : Span) : Prop :=
  outer.start ≤ inner.start ∧ inner.stop ≤ outer.stop

instance (inner outer : Span) : Decidable (inner.Within outer) :=
  inferInstanceAs (Decidable (_ ∧ _))

theorem Span.Within.refl (span : Span) : span.Within span := ⟨Nat.le_refl _, Nat.le_refl _⟩

theorem Span.Within.trans {inner middle outer : Span} (first : inner.Within middle)
    (second : middle.Within outer) : inner.Within outer :=
  ⟨Nat.le_trans second.1 first.1, Nat.le_trans first.2 second.2⟩

namespace Text

/-- The number of bytes that the characters take. -/
def size : List Char → Nat
  | [] => 0
  | c :: rest => c.utf8Size + size rest

@[simp] theorem size_append (first second : List Char) :
    size (first ++ second) = size first + size second := by
  induction first with
  | nil => simp [size]
  | cons c rest ih =>
      simp only [List.cons_append, size, ih]
      omega

theorem eq_nil_of_size_eq_zero {chars : List Char} (empty : size chars = 0) : chars = [] := by
  cases chars with
  | nil => rfl
  | cons c rest =>
      have positive := c.utf8Size_pos
      rw [size] at empty
      omega

/-- Of two beginnings of a text the one with fewer bytes is the shorter one. -/
theorem prefix_of_size_le {first second chars : List Char} (left : first <+: chars)
    (right : second <+: chars) (le : size first ≤ size second) : first <+: second := by
  rcases List.prefix_or_prefix_of_prefix left right with within | ⟨more, rfl⟩
  · exact within
  · have nothing : more = [] := by
      rw [size_append] at le
      exact eq_nil_of_size_eq_zero (by omega)
    simp [nothing]

theorem append_of_dropBytes {n : Nat} {chars rest : List Char}
    (dropped : dropBytes n chars = some rest) :
    ∃ before, chars = before ++ rest ∧ size before = n := by
  fun_induction dropBytes n chars with
  | case1 chars =>
      cases dropped
      exact ⟨[], rfl, rfl⟩
  | case2 n => cases dropped
  | case3 n c chars fits ih =>
      obtain ⟨before, parts, total⟩ := ih dropped
      refine ⟨c :: before, by rw [parts]; rfl, ?_⟩
      rw [size]
      omega
  | case4 n c chars cutsOpen => cases dropped

theorem append_of_takeBytes {n : Nat} {chars taken : List Char}
    (found : takeBytes n chars = some taken) :
    ∃ after, chars = taken ++ after ∧ size taken = n := by
  fun_induction takeBytes n chars generalizing taken with
  | case1 chars =>
      cases found
      exact ⟨chars, rfl, rfl⟩
  | case2 n => cases found
  | case3 n c chars fits ih =>
      obtain ⟨begun, foundBegun, rfl⟩ := Option.map_eq_some_iff.mp found
      obtain ⟨after, parts, total⟩ := ih foundBegun
      refine ⟨after, by rw [parts]; rfl, ?_⟩
      rw [size]
      omega
  | case4 n c chars cutsOpen => cases found

theorem append_of_cut {chars part : List Char} {span : Span} (found : cut chars span = some part) :
    ∃ before after, chars = before ++ part ++ after ∧ size before = span.start ∧
      size (before ++ part) = span.stop := by
  unfold cut at found
  split at found
  · next ordered =>
      obtain ⟨rest, dropped, taken⟩ := Option.bind_eq_some_iff.mp found
      obtain ⟨before, rfl, start⟩ := append_of_dropBytes dropped
      obtain ⟨after, rfl, length⟩ := append_of_takeBytes taken
      refine ⟨before, after, by simp, start, ?_⟩
      rw [size_append]
      omega
  · cases found

theorem start_le_stop_of_cut {chars : List Char} {span : Span} (found : (cut chars span).isSome) :
    span.start ≤ span.stop := by
  unfold cut at found
  split at found
  · next ordered => exact ordered
  · cases found

theorem infix_of_cut {chars part whole : List Char} {inner outer : Span}
    (within : inner.Within outer) (innerCut : cut chars inner = some part)
    (outerCut : cut chars outer = some whole) : part <:+: whole := by
  obtain ⟨before, after, parts, start, stop⟩ := append_of_cut innerCut
  obtain ⟨ahead, behind, outerParts, outerStart, outerStop⟩ := append_of_cut outerCut
  -- Each of the four cuts ends a beginning of the text, and those compare by size.
  have upToPart : before ++ part <+: chars := ⟨after, parts.symm⟩
  have upToWhole : ahead ++ whole <+: chars := ⟨behind, outerParts.symm⟩
  have reaches : before ++ part <+: ahead ++ whole := by
    refine prefix_of_size_le upToPart upToWhole ?_
    rw [stop, outerStop]
    exact within.2
  have begins : ahead <+: before := by
    refine prefix_of_size_le ((List.prefix_append ahead whole).trans upToWhole)
      ((List.prefix_append before part).trans upToPart) ?_
    rw [start, outerStart]
    exact within.1
  obtain ⟨more, rfl⟩ := begins
  rw [List.append_assoc, List.prefix_append_right_inj] at reaches
  exact (List.suffix_append more part).isInfix.trans reaches.isInfix

/-- If a span has a slice, the slice of every span within it is a part of that slice. -/
theorem slice_within {text : String} {inner outer : Span} (within : inner.Within outer)
    (found : (cut text.toList outer).isSome) :
    ∃ before after, slice text outer = before ++ slice text inner ++ after := by
  obtain ⟨whole, outerCut⟩ := Option.isSome_iff_exists.mp found
  have inside : (cut text.toList inner).getD [] <:+: whole := by
    cases innerCut : cut text.toList inner with
    | none => exact List.nil_infix
    | some part => exact infix_of_cut within innerCut outerCut
  obtain ⟨before, after, parts⟩ := inside
  refine ⟨String.ofList before, String.ofList after, ?_⟩
  rw [slice, slice, outerCut, Option.getD_some, ← parts, String.ofList_append, String.ofList_append]

theorem start_lt_stop_of_slice_ne {text : String} {span : Span} (filled : slice text span ≠ "") :
    span.start < span.stop := by
  rw [slice] at filled
  cases found : cut text.toList span with
  | none => simp [found] at filled
  | some part =>
      obtain ⟨before, _, _, start, stop⟩ := append_of_cut found
      have positive : size part ≠ 0 := by
        intro empty
        rw [found, eq_nil_of_size_eq_zero empty] at filled
        exact filled rfl
      rw [size_append] at stop
      omega

/-! ## Cuts at given sizes -/

theorem exists_size_cons (c : Char) (rest : List Char) :
    ∃ n, size (c :: rest) = n + 1 ∧ c.utf8Size ≤ n + 1 ∧ n + 1 - c.utf8Size = size rest := by
  have positive := c.utf8Size_pos
  refine ⟨size (c :: rest) - 1, ?_⟩
  rw [size]
  omega

theorem dropBytes_size_append (before rest : List Char) :
    dropBytes (size before) (before ++ rest) = some rest := by
  induction before with
  | nil => simp [size, dropBytes]
  | cons c before ih =>
      obtain ⟨n, total, fits, left⟩ := exists_size_cons c before
      rw [total, List.cons_append, dropBytes, if_pos fits, left, ih]

theorem takeBytes_size_append (part after : List Char) :
    takeBytes (size part) (part ++ after) = some part := by
  induction part with
  | nil => simp [size, takeBytes]
  | cons c part ih =>
      obtain ⟨n, total, fits, left⟩ := exists_size_cons c part
      rw [total, List.cons_append, takeBytes, if_pos fits, left, ih]
      rfl

/-- What lies between two spans that have slices is a slice itself. -/
theorem exists_cut_between {chars : List Char} {first second : Span}
    (firstCut : (cut chars first).isSome) (secondCut : (cut chars second).isSome)
    (apart : first.stop ≤ second.start) :
    ∃ part, cut chars ⟨first.stop, second.start⟩ = some part := by
  obtain ⟨one, found⟩ := Option.isSome_iff_exists.mp firstCut
  obtain ⟨two, found'⟩ := Option.isSome_iff_exists.mp secondCut
  obtain ⟨before, after, parts, _, stop⟩ := append_of_cut found
  obtain ⟨before', after', parts', start, _⟩ := append_of_cut found'
  have begins : before ++ one <+: before' := by
    refine prefix_of_size_le ⟨after, parts.symm⟩ ⟨two ++ after', by rw [parts', List.append_assoc]⟩
      ?_
    rw [stop, start]
    exact apart
  obtain ⟨part, rfl⟩ := begins
  refine ⟨part, ?_⟩
  have length : second.start - first.stop = size part := by
    rw [← start, ← stop, size_append (before ++ one) part, Nat.add_sub_cancel_left]
  rw [cut, if_pos apart, length, ← stop, parts', List.append_assoc, List.append_assoc,
    dropBytes_size_append, Option.bind_some, takeBytes_size_append]

/-! ## Rows -/

theorem breaksBefore_mono (chars : List Char) {m n : Nat} (le : m ≤ n) :
    breaksBefore m chars ≤ breaksBefore n chars := by
  induction chars generalizing m n with
  | nil => cases m <;> simp [breaksBefore]
  | cons c rest ih =>
      cases m with
      | zero => simp [breaksBefore]
      | succ m =>
          cases n with
          | zero => omega
          | succ n =>
              have later := ih (show m + 1 - c.utf8Size ≤ n + 1 - c.utf8Size by omega)
              simp only [breaksBefore]
              omega

theorem row_mono (text : String) {m n : Nat} (le : m ≤ n) : row text m ≤ row text n :=
  breaksBefore_mono text.toList le

theorem breaksBefore_size_append (before after : List Char) :
    breaksBefore (size before) (before ++ after) = before.count '\n' := by
  induction before with
  | nil => simp [size, breaksBefore]
  | cons c before ih =>
      obtain ⟨n, total, _, left⟩ := exists_size_cons c before
      rw [total, List.cons_append, breaksBefore, left, ih, List.count_cons, Nat.add_comm]
      simp only [beq_iff_eq]

/-- From the start of a slice to its end the row grows by the line breaks in the slice. -/
theorem row_stop {text : String} {span : Span} {part : List Char}
    (found : cut text.toList span = some part) :
    row text span.stop = row text span.start + part.count '\n' := by
  obtain ⟨before, after, parts, start, stop⟩ := append_of_cut found
  rw [row, row, ← stop, parts, breaksBefore_size_append, ← start, List.append_assoc,
    breaksBefore_size_append, List.count_append]

end Text
end ScopeGraph
