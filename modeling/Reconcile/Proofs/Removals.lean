import Mathlib.Data.List.Infix
import Reconcile.Text.Replaced

/-!
# Removals

`removeFrom` takes out the occurrences of a part as it meets them, from the left.  Often only
some of the occurrences are meant, those between the pieces of a text that was laid out with
the part in front of each piece but the first.  Those and no others are taken out if the part
begins nowhere in the pieces (`removeFrom_laid`).

The converse needs an argument.  Another occurrence that is met first could be taken out in the
place of the one behind it and leave the same text, the way one of two blanks is as good as the
other.  It cannot where no piece ends in the last character of the part
(`removeFrom_laid_iff`).  What is removed is never behind what was meant, since it is removed as
soon as it is met.  So look at the last place where the two differ: right in front of what both
have left, one text has the end of the part and the other the end of a piece.
-/

namespace Reconcile.Text

/-- A first piece, and further ones with the part in front of each. -/
def laid (part first : List Char) (more : List (List Char)) : List Char :=
  first ++ more.flatMap (part ++ ·)

/-- The part begins nowhere in a text that goes on with `rest`. -/
def BeginsNowhere (part text rest : List Char) : Prop :=
  ∀ t, t ≠ [] → t <:+ text → ¬ part <+: t ++ rest

/-- The part begins in no piece of what was laid out. -/
def StaysOut (part : List Char) : List Char → List (List Char) → Prop
  | first, [] => BeginsNowhere part first []
  | first, next :: more =>
      BeginsNowhere part first (part ++ laid part next more) ∧ StaysOut part next more

/-- No piece that goes on with the part ends like it, and only the first one may be empty. -/
def EndsApart (part : List Char) : List Char → List (List Char) → Prop
  | _, [] => True
  | first, next :: more =>
      first.getLast? ≠ part.getLast? ∧ (more ≠ [] → next ≠ []) ∧ EndsApart part next more

variable {part first next s t rest : List Char} {more : List (List Char)}

/-! ## What was laid out -/

@[simp] theorem laid_nil : laid part first [] = first := by
  simp [laid]

@[simp] theorem laid_cons :
    laid part first (next :: more) = first ++ (part ++ laid part next more) := by
  simp [laid]

theorem laid_append (s : List Char) : laid part (s ++ first) more = s ++ laid part first more := by
  simp [laid]

theorem EndsApart.append (h : EndsApart part first more) (hs : s.getLast? ≠ part.getLast?) :
    EndsApart part (s ++ first) more := by
  cases more with
  | nil => trivial
  | cons next more =>
      refine ⟨?_, h.2⟩
      by_cases hfirst : first = []
      · simpa [hfirst] using hs
      · rw [List.getLast?_append_of_ne_nil s hfirst]
        exact h.1

theorem length_laid :
    (laid part first more).length
      = (first ++ more.flatten).length + more.length * part.length := by
  induction more generalizing first with
  | nil => simp
  | cons next more ih =>
      simp only [laid_cons, List.length_append, ih, List.flatten_cons, List.length_cons,
        Nat.add_mul]
      omega

/-! ## Where a part begins -/

theorem beginsNowhere_nil : BeginsNowhere part [] rest := by
  intro t ht hsuffix
  exact absurd (List.suffix_nil.mp hsuffix) ht

theorem beginsNowhere_cons {c : Char} :
    BeginsNowhere part (c :: s) rest
      ↔ ¬ part <+: c :: (s ++ rest) ∧ BeginsNowhere part s rest := by
  constructor
  · intro h
    exact ⟨h (c :: s) (List.cons_ne_nil c s) List.suffix_rfl,
      fun t ht hsuffix => h t ht (hsuffix.trans (List.suffix_cons c s))⟩
  · rintro ⟨hhead, htail⟩ t ht hsuffix
    rcases List.suffix_cons_iff.mp hsuffix with rfl | hsuffix
    · exact hhead
    · exact htail t ht hsuffix

theorem beginsNowhere_append :
    BeginsNowhere part (s ++ t) rest
      ↔ BeginsNowhere part s (t ++ rest) ∧ BeginsNowhere part t rest := by
  induction s with
  | nil => simp [beginsNowhere_nil]
  | cons c s ih => simp [beginsNowhere_cons, ih, and_assoc]

/-- Without the character that a part begins with, no part begins. -/
theorem beginsNowhere_of_notMem {c : Char} (h : c ∉ s) :
    BeginsNowhere (c :: part) s rest := by
  induction s with
  | nil => exact beginsNowhere_nil
  | cons d s ih =>
      rw [List.mem_cons, not_or] at h
      exact beginsNowhere_cons.mpr
        ⟨fun hbegins => h.1 (List.cons_prefix_cons.mp hbegins).1, ih h.2⟩

theorem staysOut_append :
    StaysOut part (s ++ first) more
      ↔ BeginsNowhere part s (laid part first more) ∧ StaysOut part first more := by
  cases more with
  | nil => simp [StaysOut, beginsNowhere_append]
  | cons next more => simp [StaysOut, beginsNowhere_append, and_assoc]

/-! ## What is removed -/

theorem removeFrom_passing (s rest : List Char) :
    removeFrom part s.length (s ++ rest) = removeFrom part 0 rest := by
  induction s with
  | nil => rfl
  | cons c s ih => simpa [removeFrom] using ih

theorem removeFrom_part (hpart : part ≠ []) (rest : List Char) :
    removeFrom part 0 (part ++ rest) = removeFrom part 0 rest := by
  cases part with
  | nil => exact absurd rfl hpart
  | cons c part =>
      have hbegins : (c :: part).isPrefixOf (c :: (part ++ rest)) = true :=
        List.isPrefixOf_iff_prefix.mpr (List.prefix_append _ rest)
      simp [removeFrom, hbegins, removeFrom_passing]

theorem removeFrom_append (h : BeginsNowhere part s rest) :
    removeFrom part 0 (s ++ rest) = s ++ removeFrom part 0 rest := by
  induction s with
  | nil => rfl
  | cons c s ih =>
      obtain ⟨hhead, htail⟩ := beginsNowhere_cons.mp h
      have hbegins : part.isPrefixOf (c :: (s ++ rest)) = false := by
        simpa [← List.isPrefixOf_iff_prefix] using hhead
      simp [removeFrom, hbegins, ih htail]

theorem removeFrom_laid (hpart : part ≠ []) (h : StaysOut part first more) :
    removeFrom part 0 (laid part first more) = first ++ more.flatten := by
  induction more generalizing first with
  | nil => simpa [removeFrom] using removeFrom_append h
  | cons next more ih =>
      rw [laid_cons, removeFrom_append h.1, removeFrom_part hpart, ih h.2, List.flatten_cons]

/-- Every text is laid out with the occurrences that are removed from it. -/
theorem exists_staysOut (hpart : part ≠ []) (text : List Char) :
    ∃ first more, text = laid part first more ∧ StaysOut part first more := by
  induction hlength : text.length using Nat.strong_induction_on generalizing text with
  | _ n ih =>
      by_cases hbegins : part <+: text
      · obtain ⟨rest, rfl⟩ := hbegins
        have hshorter : rest.length < n := by
          have := List.length_pos_iff.mpr hpart
          rw [List.length_append] at hlength
          omega
        obtain ⟨first, more, rfl, hout⟩ := ih _ hshorter rest rfl
        exact ⟨[], first :: more, by simp, beginsNowhere_nil, hout⟩
      cases text with
      | nil => exact ⟨[], [], rfl, beginsNowhere_nil⟩
      | cons c cs =>
          obtain ⟨first, more, rfl, hout⟩ := ih _ (by simp [← hlength]) cs rfl
          refine ⟨c :: first, more, rfl, ?_⟩
          rw [← List.singleton_append, staysOut_append, beginsNowhere_cons]
          exact ⟨⟨hbegins, beginsNowhere_nil⟩, hout⟩

/-! ## Which occurrences are removed -/

/-- A part that begins nowhere in front of its first occurrence is not behind in taking it. -/
theorem ahead_of_beginsNowhere {ahead first' rest' : List Char}
    (hfirst : BeginsNowhere part first' (part ++ rest'))
    (h : first' ++ (part ++ rest') = ahead ++ (first ++ (part ++ rest))) :
    ∃ gap ahead', ahead ++ first = first' ++ gap ∧ gap ++ part = part ++ ahead'
      ∧ rest' = ahead' ++ rest := by
  rw [← List.append_assoc ahead] at h
  rcases List.append_eq_append_iff.mp h with ⟨gap, hgap, hrest⟩ | ⟨tail, htail, hrest⟩
  · have hbegins : part <+: gap ++ part :=
      List.prefix_of_prefix_length_le (List.prefix_append part rest')
        (by rw [hrest, ← List.append_assoc]; exact List.prefix_append _ rest) (by simp)
    obtain ⟨ahead', hahead⟩ := hbegins
    refine ⟨gap, ahead', hgap, hahead.symm, ?_⟩
    rwa [← List.append_assoc gap, ← hahead, List.append_assoc,
      List.append_cancel_left_eq] at hrest
  · by_cases hnil : tail = []
    · subst hnil
      refine ⟨[], [], by simpa using htail.symm, by simp, ?_⟩
      simpa using hrest.symm
    · exact absurd ⟨rest, hrest⟩ (hfirst tail hnil ⟨_, htail.symm⟩)

/-- Two layouts of one text leave texts that end alike, and in one of them the part begins in no
piece, so it is never behind the other.  Then it is nowhere ahead either. -/
theorem layout_unique {ahead first' : List Char} {more' : List (List Char)} (hpart : part ≠ [])
    (hout : StaysOut part first' more') (hapart : EndsApart part first more)
    (htext : laid part first' more' = ahead ++ laid part first more)
    (hcount : more'.length = more.length)
    (hkept : first ++ more.flatten <:+ first' ++ more'.flatten)
    (hempty : more ≠ [] → first = [] → ahead = []) :
    first' = ahead ++ first ∧ more' = more := by
  induction more generalizing ahead first first' more' with
  | nil =>
      obtain rfl := List.length_eq_zero_iff.mp hcount
      exact ⟨by simpa using htext, rfl⟩
  | cons next more ih =>
      obtain ⟨next', more', rfl⟩ := List.exists_cons_of_length_eq_add_one hcount
      obtain ⟨hfirst, hout⟩ := hout
      obtain ⟨hends, hnext, hapart⟩ := hapart
      rw [List.length_cons, List.length_cons, Nat.add_right_cancel_iff] at hcount
      rw [laid_cons, laid_cons] at htext
      rw [List.flatten_cons, List.flatten_cons] at hkept
      obtain ⟨gap, ahead', hgap, hpassed, htext⟩ := ahead_of_beginsNowhere hfirst htext
      have hlength : gap.length = ahead'.length := by
        have := congrArg List.length hpassed
        simp only [List.length_append] at this
        omega
      -- What is left behind the first occurrences is again the same, up to `ahead'`.
      have hkept' : next ++ more.flatten <:+ next' ++ more'.flatten := by
        refine List.suffix_of_suffix_length_le ((List.suffix_append first _).trans hkept)
          (List.suffix_append first' _) ?_
        have := congrArg List.length htext
        rw [List.length_append, length_laid, length_laid, hcount] at this
        omega
      obtain ⟨rfl, rfl⟩ := ih hout hapart htext hcount hkept'
        fun hmore hnil => absurd hnil (hnext hmore)
      suffices hnil : ahead' = [] by
        subst hnil
        obtain rfl := List.length_eq_zero_iff.mp hlength
        exact ⟨by simpa using hgap.symm, by simp⟩
      by_contra hahead
      -- Both have `next` here, one behind a piece and the other behind the part.
      have hfirst' : first ≠ [] := by
        rintro rfl
        rw [hempty (List.cons_ne_nil _ _) rfl] at hgap
        obtain ⟨-, rfl⟩ := List.append_eq_nil_iff.mp hgap.symm
        exact hahead (List.length_eq_zero_iff.mp hlength.symm)
      obtain ⟨front, hfront⟩ := hkept
      have hlast : front ++ first = first' ++ ahead' := by
        simpa [← List.append_assoc] using hfront
      refine hends ?_
      rw [← List.getLast?_append_of_ne_nil front hfirst', hlast,
        List.getLast?_append_of_ne_nil first' hahead,
        ← List.getLast?_append_of_ne_nil part hahead, ← hpassed,
        List.getLast?_append_of_ne_nil gap hpart]

theorem removeFrom_laid_iff (hpart : part ≠ []) (hapart : EndsApart part first more) :
    removeFrom part 0 (laid part first more) = first ++ more.flatten
      ↔ StaysOut part first more := by
  refine ⟨fun h => ?_, removeFrom_laid hpart⟩
  obtain ⟨first', more', htext, hout⟩ := exists_staysOut hpart (laid part first more)
  rw [htext, removeFrom_laid hpart hout] at h
  have hcount : more'.length = more.length := by
    have hlength := congrArg List.length htext
    rw [length_laid, length_laid, h, Nat.add_left_cancel_iff] at hlength
    exact (Nat.eq_of_mul_eq_mul_right (List.length_pos_iff.mpr hpart) hlength).symm
  have hahead : laid part first' more' = [] ++ laid part first more := htext.symm
  obtain ⟨rfl, rfl⟩ := layout_unique hpart hout hapart hahead hcount (h ▸ List.suffix_rfl)
    (fun _ _ => rfl)
  exact hout

end Reconcile.Text
