import Reconcile.Diff.Equality
import Mathlib.Data.List.DropRight

/-!
# What a canonical definition says

The canonical form of a stored definition is computed by three passes over the whole text:
one for the line ends, one for the blanks before them, one for the two ends of the text.
What it says is a matter of lines.  Cut at every line end, take the spaces and tabs off the
end of each line, put the lines together again with line feeds, and trim
(`canonicalChars_eq_linewise`).

The lemma that carries the module is `canonicalChars_of_laid`: however the lines of a
definition are laid out, with whatever blanks behind them and whatever line ends between
them, its canonical form is that of the lines.  Since every text lays out its own lines, it
gives the reading by lines; since a canonical form lays out the lines it was made of, a
second pass changes nothing; and two layouts of the same lines have one canonical form.
-/

namespace Reconcile.Text

/-! ## Lines -/

/-- The lines of a text.  CR LF, a lone CR and LF end a line each. -/
def lines : List Char → List (List Char)
  | [] => [[]]
  | '\r' :: '\n' :: cs => [] :: lines cs
  | c :: cs =>
      if c = '\r' ∨ c = '\n' then [] :: lines cs
      else (lines cs).modifyHead (c :: ·)

/-- A line without the spaces and tabs at its end. -/
def trimLine (line : List Char) : List Char :=
  dropEndWhile isLineBlank line

def joinLines (ls : List (List Char)) : List Char :=
  ['\n'].intercalate ls

/-- The text with every line trimmed at its end, and trimmed as a whole. -/
def linewise (cs : List Char) : List Char :=
  trimChars (joinLines ((lines cs).map trimLine))

/-- No line end stands inside it. -/
def Unbroken (line : List Char) : Prop :=
  ∀ c ∈ line, c ≠ '\r' ∧ c ≠ '\n'

instance : DecidablePred Unbroken :=
  List.decidableBAll fun c => c ≠ '\r' ∧ c ≠ '\n'

inductive LineEnd where
  | crlf
  | cr
  | lf

def LineEnd.chars : LineEnd → List Char
  | .crlf => ['\r', '\n']
  | .cr => ['\r']
  | .lf => ['\n']

/-- The text holds these lines, each but the last with a line end behind it, and each with
spaces and tabs of the layout's own behind it.  A lone CR is one that no LF follows. -/
inductive Laid : List (List Char) → List Char → Prop
  | last (line blanks : List Char) (hline : Unbroken line)
      (hblanks : ∀ c ∈ blanks, isLineBlank c = true) : Laid [line] (line ++ blanks)
  | line (line blanks : List Char) (e : LineEnd) {cs : List Char} {ls : List (List Char)}
      (hline : Unbroken line) (hblanks : ∀ c ∈ blanks, isLineBlank c = true)
      (hlone : e = .cr → cs.head? ≠ some '\n') (hrest : Laid ls cs) :
      Laid (line :: ls) (line ++ blanks ++ e.chars ++ cs)

/-- Two texts that have the same lines, and differ in line ends, in the blanks behind lines
and in the white space around the whole. -/
def SameButLayout (a b : String) : Prop :=
  ∃ ls x y, Laid ls x ∧ Laid ls y ∧ trimChars a.toList = trimChars x
    ∧ trimChars b.toList = trimChars y

variable {c : Char} {cs line blanks : List Char} {ls : List (List Char)}

theorem joinLines_cons (line : List Char) (hls : ls ≠ []) :
    joinLines (line :: ls) = line ++ '\n' :: joinLines ls := by
  cases ls with
  | nil => exact absurd rfl hls
  | cons next ls => simp [joinLines, List.intercalate]

/-! ## Trimming -/

theorem dropEndWhile_append_of_all {p : Char → Bool} (h : ∀ c ∈ blanks, p c = true)
    (cs : List Char) : dropEndWhile p (cs ++ blanks) = dropEndWhile p cs := by
  have hnone : blanks.reverse.dropWhile p = [] := by
    rw [List.dropWhile_eq_nil_iff]
    exact fun c hc => h c (List.mem_reverse.mp hc)
  simp [dropEndWhile, List.dropWhile_append, hnone]

/-- What is dropped at the end satisfies the predicate. -/
theorem exists_dropEndWhile_append (p : Char → Bool) (cs : List Char) :
    ∃ rest, (∀ c ∈ rest, p c = true) ∧ cs = dropEndWhile p cs ++ rest :=
  ⟨cs.rtakeWhile p, fun _ hc => List.mem_rtakeWhile_imp hc,
    List.rdropWhile_append_rtakeWhile.symm⟩

theorem trimChars_append_of_blank (h : ∀ c ∈ blanks, isBlank c = true) (cs : List Char) :
    trimChars (cs ++ blanks) = trimChars cs := by
  have hnone : blanks.dropWhile isBlank = [] := List.dropWhile_eq_nil_iff.mpr h
  unfold trimChars
  rw [List.dropWhile_append]
  split
  next hall =>
    rw [hnone, List.isEmpty_iff.mp hall]
  next => exact dropEndWhile_append_of_all h _

theorem trimChars_cons_of_blank (h : isBlank c = true) (cs : List Char) :
    trimChars (c :: cs) = trimChars cs := by
  simp [trimChars, h]

theorem isBlank_of_isLineBlank (h : isLineBlank c = true) : isBlank c = true := by
  simp only [isLineBlank, Bool.or_eq_true, beq_iff_eq] at h
  rcases h with rfl | rfl <;> decide

/-! ## White space around a definition -/

theorem unifyLineEnds_cons (hc : c = '\r' → cs.head? ≠ some '\n') :
    unifyLineEnds (c :: cs) = (if c = '\r' then '\n' else c) :: unifyLineEnds cs := by
  rw [unifyLineEnds.eq_def]
  split
  next h => cases h
  next h =>
    cases h
    simp at hc
  next h =>
    cases h
    rfl

theorem isBlank_unified (hc : isBlank c = true) :
    isBlank (if c = '\r' then '\n' else c) = true := by
  split
  · decide
  · exact hc

theorem dropLineBlanks_cons (c : Char) (cs : List Char) :
    dropLineBlanks (c :: cs)
      = if isLineBlank c = true ∧ (dropLineBlanks cs).head? = some '\n' then dropLineBlanks cs
        else c :: dropLineBlanks cs := by
  simp [dropLineBlanks]

theorem trimChars_dropLineBlanks_cons (hc : isBlank c = true) (cs : List Char) :
    trimChars (dropLineBlanks (c :: cs)) = trimChars (dropLineBlanks cs) := by
  rw [dropLineBlanks_cons]
  split
  · rfl
  · exact trimChars_cons_of_blank hc _

theorem canonicalChars_cons_of_blank (hc : isBlank c = true) (cs : List Char) :
    canonicalChars (c :: cs) = canonicalChars cs := by
  by_cases hpair : c = '\r' → cs.head? ≠ some '\n'
  · rw [canonicalChars, unifyLineEnds_cons hpair]
    exact trimChars_dropLineBlanks_cons (isBlank_unified hc) _
  · -- The character is the CR of a CR LF, which ends one line with or without it.
    obtain ⟨rfl, hlf⟩ : c = '\r' ∧ cs.head? = some '\n' := by simpa using hpair
    obtain ⟨rest, rfl⟩ := List.head?_eq_some_iff.mp hlf
    rfl

theorem canonicalChars_dropWhile_isBlank (cs : List Char) :
    canonicalChars (cs.dropWhile isBlank) = canonicalChars cs := by
  induction cs with
  | nil => rfl
  | cons c cs ih =>
      rw [List.dropWhile_cons]
      split
      next hc => rw [ih, canonicalChars_cons_of_blank hc]
      next => rfl

/-- The same up to white space at the end. -/
def SameUpToEnd (xs ys : List Char) : Prop :=
  ∃ core p q, (∀ c ∈ p, isBlank c = true) ∧ (∀ c ∈ q, isBlank c = true)
    ∧ xs = core ++ p ∧ ys = core ++ q

theorem SameUpToEnd.trimChars_eq {xs ys : List Char} (h : SameUpToEnd xs ys) :
    trimChars xs = trimChars ys := by
  obtain ⟨core, p, q, hp, hq, rfl, rfl⟩ := h
  rw [trimChars_append_of_blank hp, trimChars_append_of_blank hq]

/-- The passes go from the end to the front, and what they make of the front depends on the
end only as far as the end may be white space. -/
theorem SameUpToEnd.cons {xs ys : List Char}
    (h : SameUpToEnd (dropLineBlanks xs) (dropLineBlanks ys)) (c : Char) :
    SameUpToEnd (dropLineBlanks (c :: xs)) (dropLineBlanks (c :: ys)) := by
  obtain ⟨core, p, q, hp, hq, hx, hy⟩ := h
  rw [dropLineBlanks_cons, dropLineBlanks_cons, hx, hy]
  cases core with
  | cons d core =>
      by_cases hdrop : isLineBlank c = true ∧ d = '\n'
      · exact ⟨d :: core, p, q, hp, hq, by simp [hdrop], by simp [hdrop]⟩
      · refine ⟨c :: d :: core, p, q, hp, hq, ?_, ?_⟩ <;> simpa using hdrop
  | nil =>
      by_cases hc : isLineBlank c = true
      · -- Whether or not the blank goes, white space is all there is.
        have hgrown : ∀ r : List Char, (∀ b ∈ r, isBlank b = true) →
            ∀ b ∈ (if isLineBlank c = true ∧ r.head? = some '\n' then r else c :: r),
              isBlank b = true := by
          intro r hr b hb
          split at hb
          · exact hr b hb
          · rcases List.mem_cons.mp hb with rfl | hb
            · exact isBlank_of_isLineBlank hc
            · exact hr b hb
        exact ⟨[], _, _, hgrown p hp, hgrown q hq, rfl, rfl⟩
      · exact ⟨[c], p, q, hp, hq, by simp [hc], by simp [hc]⟩

theorem sameUpToEnd_concat (hc : isBlank c = true) (cs : List Char) :
    SameUpToEnd (dropLineBlanks (unifyLineEnds (cs ++ [c])))
      (dropLineBlanks (unifyLineEnds cs)) := by
  fun_induction unifyLineEnds cs with
  | case1 =>
      refine ⟨[], [if c = '\r' then '\n' else c], [], ?_, by simp, ?_, rfl⟩
      · intro b hb
        rw [List.mem_singleton.mp hb]
        exact isBlank_unified hc
      · rw [List.nil_append, unifyLineEnds_cons (by simp)]
        simp [unifyLineEnds, dropLineBlanks]
  | case2 cs ih => exact ih.cons '\n'
  | case3 d cs hpair ih =>
      by_cases hlone : d = '\r' → (cs ++ [c]).head? ≠ some '\n'
      · rw [List.cons_append, unifyLineEnds_cons hlone]
        exact ih.cons _
      · -- The blank is the LF of a CR LF, whose CR was the whole text.
        obtain ⟨rfl, hlf⟩ : d = '\r' ∧ (cs ++ [c]).head? = some '\n' := by
          simpa using hlone
        cases cs with
        | nil =>
            obtain rfl : c = '\n' := by simpa using hlf
            exact ⟨['\n'], [], [], by simp, by simp, rfl, rfl⟩
        | cons e cs =>
            obtain rfl : e = '\n' := by simpa using hlf
            exact absurd rfl (hpair cs rfl)

theorem canonicalChars_append_of_blank (h : ∀ c ∈ blanks, isBlank c = true)
    (cs : List Char) : canonicalChars (cs ++ blanks) = canonicalChars cs := by
  induction blanks using List.reverseRecOn with
  | nil => rw [List.append_nil]
  | append_singleton blanks c ih =>
      rw [← List.append_assoc]
      refine (sameUpToEnd_concat (h c (by simp)) _).trimChars_eq.trans ?_
      exact ih fun b hb => h b (by simp [hb])

/-- White space around a definition does not matter. -/
theorem canonicalChars_trimChars (cs : List Char) :
    canonicalChars (trimChars cs) = canonicalChars cs := by
  obtain ⟨blanks, hblanks, hend⟩ := exists_dropEndWhile_append isBlank (cs.dropWhile isBlank)
  calc canonicalChars (trimChars cs)
      = canonicalChars (trimChars cs ++ blanks) :=
        (canonicalChars_append_of_blank hblanks _).symm
    _ = canonicalChars (cs.dropWhile isBlank) := congrArg canonicalChars hend.symm
    _ = canonicalChars cs := canonicalChars_dropWhile_isBlank cs

/-! ## Lines and their layouts -/

theorem unifyLineEnds_append_of_unbroken (hline : Unbroken line) (cs : List Char) :
    unifyLineEnds (line ++ cs) = line ++ unifyLineEnds cs := by
  induction line with
  | nil => rfl
  | cons c line ih =>
      have hc : c ≠ '\r' := (hline c List.mem_cons_self).1
      rw [List.cons_append, unifyLineEnds_cons fun h => absurd h hc, if_neg hc,
        ih fun d hd => hline d (List.mem_cons_of_mem c hd)]
      rfl

theorem unifyLineEnds_lineEnd (e : LineEnd) (hlone : e = .cr → cs.head? ≠ some '\n') :
    unifyLineEnds (e.chars ++ cs) = '\n' :: unifyLineEnds cs := by
  cases e with
  | crlf => rfl
  | cr => exact unifyLineEnds_cons fun _ => hlone rfl
  | lf => exact unifyLineEnds_cons fun h => absurd h (by decide)

/-- Blanks that no line feed follows stay. -/
theorem dropLineBlanks_of_unbroken (hline : Unbroken line) : dropLineBlanks line = line := by
  induction line with
  | nil => rfl
  | cons c line ih =>
      have hrest : Unbroken line := fun d hd => hline d (List.mem_cons_of_mem c hd)
      have hnext : line.head? ≠ some '\n' := by
        intro hlf
        exact (hrest '\n' (List.mem_of_mem_head? hlf)).2 rfl
      rw [dropLineBlanks_cons, ih hrest, if_neg fun h => hnext h.2]

theorem trimLine_cons (c : Char) (line : List Char) :
    trimLine (c :: line)
      = if isLineBlank c = true ∧ trimLine line = [] then [] else c :: trimLine line := by
  unfold trimLine dropEndWhile
  rw [List.reverse_cons, List.dropWhile_append]
  by_cases hrest : line.reverse.dropWhile isLineBlank = []
  · by_cases hc : isLineBlank c = true <;> simp [hrest, hc]
  · simp [hrest]

theorem prefix_trimLine (line : List Char) : trimLine line <+: line :=
  List.rdropWhile_prefix isLineBlank line

/-- In front of a line feed, what goes is what is trimmed from the end of the line. -/
theorem dropLineBlanks_append_lineFeed (hline : Unbroken line) (cs : List Char) :
    dropLineBlanks (line ++ '\n' :: cs) = trimLine line ++ '\n' :: dropLineBlanks cs := by
  induction line with
  | nil =>
      rw [List.nil_append, dropLineBlanks_cons, if_neg (by simp [isLineBlank])]
      rfl
  | cons c line ih =>
      have hrest : Unbroken line := fun d hd => hline d (List.mem_cons_of_mem c hd)
      have hnext : (trimLine line ++ '\n' :: dropLineBlanks cs).head? = some '\n'
          ↔ trimLine line = [] := by
        cases htrim : trimLine line with
        | nil => simp
        | cons d ds =>
            have hd : d ∈ line := (prefix_trimLine line).subset (by simp [htrim])
            simpa using (hrest d hd).2
      rw [List.cons_append, dropLineBlanks_cons, ih hrest, trimLine_cons]
      by_cases hdrop : isLineBlank c = true ∧ trimLine line = []
      · rw [if_pos hdrop, if_pos ⟨hdrop.1, hnext.mpr hdrop.2⟩, hdrop.2]
      · rw [if_neg hdrop, if_neg fun h => hdrop ⟨h.1, hnext.mp h.2⟩]
        rfl

theorem Laid.ne_nil (h : Laid ls cs) : ls ≠ [] := by
  cases h <;> exact List.cons_ne_nil _ _

theorem Laid.unbroken (h : Laid ls cs) : ∀ l ∈ ls, Unbroken l := by
  induction h with
  | last _ _ hline => simpa using hline
  | line _ _ _ hline _ _ _ ih => simpa using ⟨hline, ih⟩

theorem unbroken_of_lineBlanks (h : ∀ c ∈ blanks, isLineBlank c = true) : Unbroken blanks := by
  intro c hc
  constructor <;> rintro rfl <;> exact absurd (h _ hc) (by decide)

theorem Unbroken.append {rest : List Char} (hline : Unbroken line) (hrest : Unbroken rest) :
    Unbroken (line ++ rest) := by
  intro c hc
  rcases List.mem_append.mp hc with hc | hc
  · exact hline c hc
  · exact hrest c hc

/-- What the first two passes make of a layout: the trimmed lines, and blanks at the end. -/
theorem dropLineBlanks_of_laid (h : Laid ls cs) :
    ∃ blanks, (∀ c ∈ blanks, isBlank c = true)
      ∧ dropLineBlanks (unifyLineEnds cs) = joinLines (ls.map trimLine) ++ blanks := by
  induction h with
  | last line blanks hline hblanks =>
      have hall := hline.append (unbroken_of_lineBlanks hblanks)
      obtain ⟨rest, hrest, hend⟩ := exists_dropEndWhile_append isLineBlank (line ++ blanks)
      refine ⟨rest, fun c hc => isBlank_of_isLineBlank (hrest c hc), ?_⟩
      have hunified := unifyLineEnds_append_of_unbroken hall []
      rw [unifyLineEnds, List.append_nil] at hunified
      rw [hunified, dropLineBlanks_of_unbroken hall]
      rw [dropEndWhile_append_of_all hblanks] at hend
      simpa [joinLines, List.intercalate, trimLine] using hend
  | line line blanks e hline hblanks hlone hrest ih =>
      obtain ⟨rest, hblank, hsame⟩ := ih
      have hall := hline.append (unbroken_of_lineBlanks hblanks)
      refine ⟨rest, hblank, ?_⟩
      rw [List.append_assoc, unifyLineEnds_append_of_unbroken hall,
        unifyLineEnds_lineEnd e hlone, dropLineBlanks_append_lineFeed hall, hsame,
        List.map_cons, joinLines_cons _ (by simpa using hrest.ne_nil), trimLine,
        dropEndWhile_append_of_all hblanks, trimLine]
      simp

/-- The canonical form of a definition is that of its lines, however they are laid out. -/
theorem canonicalChars_of_laid (h : Laid ls cs) :
    canonicalChars cs = trimChars (joinLines (ls.map trimLine)) := by
  obtain ⟨blanks, hblanks, hsame⟩ := dropLineBlanks_of_laid h
  rw [canonicalChars, hsame, trimChars_append_of_blank hblanks]

theorem Laid.cons (h : Laid ls cs) (hc : c ≠ '\r' ∧ c ≠ '\n') :
    Laid (ls.modifyHead (c :: ·)) (c :: cs) := by
  have hgrown : ∀ {line : List Char}, Unbroken line → Unbroken (c :: line) := by
    intro line hline d hd
    rcases List.mem_cons.mp hd with rfl | hd
    · exact hc
    · exact hline d hd
  cases h with
  | last line blanks hline hblanks => exact .last (c :: line) blanks (hgrown hline) hblanks
  | line line blanks e hline hblanks hlone hrest =>
      exact .line (c :: line) blanks e (hgrown hline) hblanks hlone hrest

/-- A text lays out its own lines. -/
theorem laid_lines (cs : List Char) : Laid (lines cs) cs := by
  have hnone : Unbroken [] := by simp [Unbroken]
  fun_induction lines cs with
  | case1 => exact .last [] [] hnone (by simp)
  | case2 cs ih => exact .line [] [] .crlf hnone (by simp) (by simp) ih
  | case3 c cs hpair hc ih =>
      rcases hc with rfl | rfl
      · refine .line [] [] .cr hnone (by simp) ?_ ih
        rintro - hlf
        obtain ⟨rest, rfl⟩ := List.head?_eq_some_iff.mp hlf
        exact hpair rest rfl rfl
      · exact .line [] [] .lf hnone (by simp) (by simp) ih
  | case4 c cs _ hc ih => exact ih.cons (by simpa using hc)

/-- Lines with line feeds between them and nothing else. -/
theorem laid_joinLines (hne : ls ≠ []) (hls : ∀ l ∈ ls, Unbroken l) :
    Laid ls (joinLines ls) := by
  induction ls with
  | nil => exact absurd rfl hne
  | cons line ls ih =>
      have hline : Unbroken line := hls line List.mem_cons_self
      by_cases hlast : ls = []
      · subst hlast
        simpa [joinLines, List.intercalate] using Laid.last line [] hline (by simp)
      · have hrest := ih hlast fun l hl => hls l (List.mem_cons_of_mem line hl)
        rw [joinLines_cons line hlast]
        simpa [LineEnd.chars] using Laid.line line [] .lf hline (by simp) (by simp) hrest

theorem canonicalChars_eq_linewise (cs : List Char) : canonicalChars cs = linewise cs :=
  canonicalChars_of_laid (laid_lines cs)

theorem trimLine_trimLine (line : List Char) : trimLine (trimLine line) = trimLine line :=
  List.rdropWhile_idempotent isLineBlank line

theorem canonicalChars_canonicalChars (cs : List Char) :
    canonicalChars (canonicalChars cs) = canonicalChars cs := by
  have hlaid : Laid ((lines cs).map trimLine) (joinLines ((lines cs).map trimLine)) := by
    refine laid_joinLines (by simpa using (laid_lines cs).ne_nil) ?_
    intro l hl c hc
    obtain ⟨line, hline, rfl⟩ := List.mem_map.mp hl
    exact (laid_lines cs).unbroken line hline c ((prefix_trimLine line).subset hc)
  calc canonicalChars (canonicalChars cs)
      = canonicalChars (trimChars (joinLines ((lines cs).map trimLine))) := by
        rw [canonicalChars_of_laid (laid_lines cs)]
    _ = canonicalChars (joinLines ((lines cs).map trimLine)) := canonicalChars_trimChars _
    _ = trimChars (joinLines (((lines cs).map trimLine).map trimLine)) :=
        canonicalChars_of_laid hlaid
    _ = trimChars (joinLines ((lines cs).map trimLine)) := by
        rw [List.map_map]
        simp only [Function.comp_def, trimLine_trimLine]
    _ = canonicalChars cs := (canonicalChars_of_laid (laid_lines cs)).symm

end Reconcile.Text

namespace Reconcile

open Text

theorem sameDefinition_of_layout {a b : String} (h : SameButLayout a b) :
    sameDefinition a b = true := by
  obtain ⟨ls, x, y, hx, hy, ha, hb⟩ := h
  have hform : ∀ {text : String} {cs : List Char}, Laid ls cs →
      trimChars text.toList = trimChars cs →
      canonicalChars text.toList = trimChars (joinLines (ls.map trimLine)) := by
    intro text cs hlaid htrim
    rw [← canonicalChars_trimChars, htrim, canonicalChars_trimChars, canonicalChars_of_laid hlaid]
  simp [sameDefinition, canonical, hform hx ha, hform hy hb]

/-- The canonical form of a definition is read off its lines, a canonical form is its own,
and views and routines that differ in the layout of their definitions alone are the same. -/
theorem canonical_linewise :
    (∀ text, canonical text = String.ofList (linewise text.toList))
    ∧ (∀ text, canonical (canonical text) = canonical text)
    ∧ (∀ v w : View, SameButLayout v.definition w.definition → viewsEqual v w = true)
    ∧ ∀ r s : Routine, r.arguments = s.arguments → r.returnType = s.returnType →
        SameButLayout r.definition s.definition → routinesEqual r s = true := by
  refine ⟨fun text => ?_, fun text => ?_, fun v w h => sameDefinition_of_layout h, ?_⟩
  · rw [canonical, canonicalChars_eq_linewise]
  · rw [canonical, canonical, String.toList_ofList, canonicalChars_canonicalChars]
  · intro r s harguments hreturn h
    simp [routinesEqual, harguments, hreturn, sameDefinition_of_layout h]

/-- The query of a view with blanks behind its lines, once with each kind of line end. -/
theorem canonical_linewise_orders :
    let stored := "  SELECT 1   \r\nFROM orders\t\r\n"
    let typed := "SELECT 1\rFROM orders "
    SameButLayout stored typed ∧ canonical stored = "SELECT 1\nFROM orders"
      ∧ viewsEqual ⟨"", "v", stored⟩ ⟨"", "w", typed⟩ = true := by
  intro stored typed
  have hlast : Laid ["FROM orders".toList] "FROM orders".toList :=
    .last "FROM orders".toList [] (by decide) (by simp)
  have hstored : Laid ["SELECT 1".toList, "FROM orders".toList]
      "SELECT 1   \r\nFROM orders".toList :=
    .line "SELECT 1".toList "   ".toList .crlf (by decide) (by simp [isLineBlank]) (by simp) hlast
  have htyped : Laid ["SELECT 1".toList, "FROM orders".toList]
      "SELECT 1\rFROM orders".toList :=
    .line "SELECT 1".toList [] .cr (by decide) (by simp) (fun _ => by decide) hlast
  have hsame : SameButLayout stored typed :=
    ⟨_, _, _, hstored, htyped, by decide, by decide⟩
  exact ⟨hsame, by decide, canonical_linewise.2.2.1 ⟨"", "v", stored⟩ ⟨"", "w", typed⟩ hsame⟩

end Reconcile
