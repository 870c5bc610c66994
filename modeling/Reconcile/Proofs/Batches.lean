import Reconcile.Proofs.CanonicalDefinitions
import Reconcile.Script.Consolidated
import Reconcile.Script.SqlServer
import Mathlib.Data.Set.Function

/-!
# Batches of a SQL Server script

SQL Server's tools send a script batch by batch, and a batch ends at a line that says `GO` and
nothing else.  The rendered script is a plain text, so whether every statement arrives as it
was is a question of where such lines stand.  A statement in front of a script is the first
batch of it (`batchChars_cons`), and the blank line behind it does not count (`batchChars_feed`);
from these two a script gives its statements back by induction on them (`batches_render`).
-/

namespace Reconcile

namespace Text

/-- The lines of a text that line feeds alone end. -/
def feedLines (cs : List Char) : List (List Char) :=
  cs.splitOn '\n'

/-- The text without the line feeds at its ends. -/
def trimFeeds (cs : List Char) : List Char :=
  dropEndWhile (· == '\n') (cs.dropWhile (· == '\n'))

theorem joinLines_feedLines (cs : List Char) : joinLines (feedLines cs) = cs :=
  List.intercalate_splitOn '\n'

theorem feedLines_append (cs rest : List Char) :
    feedLines (cs ++ '\n' :: rest) = feedLines cs ++ feedLines rest :=
  List.splitOn_append_cons_self cs rest

theorem trimFeeds_feed (cs : List Char) : trimFeeds ('\n' :: cs) = trimFeeds cs := by
  simp [trimFeeds]

/-- A text that neither begins nor ends with a line feed has none to lose. -/
theorem trimFeeds_of_ends {cs : List Char} (hhead : cs.head? ≠ some '\n')
    (hlast : cs.getLast? ≠ some '\n') : trimFeeds cs = cs := by
  have hfront : cs.dropWhile (· == '\n') = cs := by
    cases cs with
    | nil => rfl
    | cons c cs =>
        have hc : c ≠ '\n' := by simpa using hhead
        simp [hc]
  have hback : cs.reverse.dropWhile (· == '\n') = cs.reverse := by
    cases hreverse : cs.reverse with
    | nil => rfl
    | cons c rest =>
        have hc : c ≠ '\n' := by
          rintro rfl
          rw [← List.head?_reverse, hreverse] at hlast
          exact hlast rfl
        simp [hc]
  rw [trimFeeds, hfront, dropEndWhile, hback, List.reverse_reverse]

end Text

namespace SqlServer

open Text

/-- The line that ends a batch. -/
def goLine : List Char :=
  ['G', 'O']

/-- What stands between the lines that end batches, without the line feeds around it, where
anything stands there. -/
def batchChars (cs : List Char) : List (List Char) :=
  (((feedLines cs).splitOn goLine).map fun ls => trimFeeds (joinLines ls)).filter (· ≠ [])

/-- The batches that a script is sent in. -/
def batches (script : String) : List String :=
  (batchChars script.toList).map String.ofList

/-- A text that may stand as a batch of its own. -/
structure Batch (s : String) : Prop where
  nonempty : s ≠ ""
  head : s.toList.head? ≠ some '\n'
  last : s.toList.getLast? ≠ some '\n'
  /-- None of its lines ends a batch. -/
  lines : goLine ∉ feedLines s.toList

section Batches

variable {s : String}

theorem Batch.trimFeeds_eq (h : Batch s) : trimFeeds s.toList = s.toList :=
  trimFeeds_of_ends h.head h.last

theorem feedLines_goLine : feedLines goLine = [goLine] :=
  List.splitOn_eq_singleton (by decide)

/-- A statement and the line behind it are read as the first batch. -/
theorem batchChars_cons (h : Batch s) (rest : List Char) :
    batchChars (s.toList ++ '\n' :: (goLine ++ '\n' :: rest)) = s.toList :: batchChars rest := by
  have hlines : feedLines (s.toList ++ '\n' :: (goLine ++ '\n' :: rest))
      = feedLines s.toList ++ goLine :: feedLines rest := by
    rw [feedLines_append, feedLines_append, feedLines_goLine]
    rfl
  unfold batchChars
  rw [hlines, List.splitOn_append_cons_self_of_not_mem h.lines, List.map_cons,
    joinLines_feedLines, h.trimFeeds_eq]
  exact List.filter_cons_of_pos (by simpa using h.nonempty)

/-- At the end of the script no line feed follows the line. -/
theorem batchChars_last (h : Batch s) :
    batchChars (s.toList ++ '\n' :: goLine) = [s.toList] := by
  unfold batchChars
  rw [feedLines_append, feedLines_goLine, List.splitOn_append_cons_self_of_not_mem h.lines,
    List.splitOn_nil, List.map_cons, joinLines_feedLines, h.trimFeeds_eq]
  exact List.filter_cons_of_pos (by simpa using h.nonempty)

/-- A line feed in front of a script only adds one to its first batch. -/
theorem batchChars_feed (cs : List Char) : batchChars ('\n' :: cs) = batchChars cs := by
  have hlines : feedLines ('\n' :: cs) = [] :: feedLines cs := feedLines_append [] cs
  have hempty : ([] : List Char) ≠ goLine := by decide
  unfold batchChars
  rw [hlines, List.splitOn_cons_eq_if_modifyHead, if_neg (by simpa using hempty)]
  cases hsplit : (feedLines cs).splitOn goLine with
  | nil => rfl
  | cons group groups =>
      have hgroup : trimFeeds (joinLines ([] :: group)) = trimFeeds (joinLines group) := by
        cases group with
        | nil => rfl
        | cons line group =>
            rw [joinLines_cons [] (List.cons_ne_nil line group)]
            exact trimFeeds_feed _
      rw [List.modifyHead_cons, List.map_cons, List.map_cons, hgroup]

end Batches

/-! ## Rendered scripts -/

variable (o : Options)

theorem toList_render_singleton (s : String) :
    ((spelling o).render [s]).toList = s.toList ++ '\n' :: goLine := by
  simp [Spelling.render, Text.joined, spelling, goLine]

theorem toList_render_cons (s t : String) (rest : List String) :
    ((spelling o).render (s :: t :: rest)).toList
      = s.toList ++ '\n' ::
          (goLine ++ '\n' :: '\n' :: ((spelling o).render (t :: rest)).toList) := by
  simp [Spelling.render, Text.joined, spelling, goLine]

theorem batchChars_render {statements : List String} (h : ∀ s ∈ statements, Batch s) :
    batchChars ((spelling o).render statements).toList = statements.map String.toList := by
  induction statements with
  | nil => rfl
  | cons s rest ih =>
      have hs : Batch s := h s List.mem_cons_self
      have hrest : ∀ t ∈ rest, Batch t := fun t ht => h t (List.mem_cons_of_mem s ht)
      cases rest with
      | nil =>
          rw [toList_render_singleton]
          exact batchChars_last hs
      | cons t rest =>
          rw [toList_render_cons, batchChars_cons hs, batchChars_feed, ih hrest]
          rfl

theorem batches_of_render {statements : List String} (h : ∀ s ∈ statements, Batch s) :
    batches ((spelling o).render statements) = statements := by
  unfold batches
  rw [batchChars_render o h, List.map_map]
  simp

/-- A script is sent in batches that are the statements it was made of, so no two lists of
statements make one script. -/
theorem batches_render :
    (∀ statements : List String, (∀ s ∈ statements, Batch s) →
      batches ((spelling o).render statements) = statements)
    ∧ Set.InjOn (spelling o).render {statements | ∀ s ∈ statements, Batch s} := by
  constructor
  · intro statements h
    exact batches_of_render o h
  · intro statements h others h' hsame
    calc statements
      _ = batches ((spelling o).render statements) := (batches_of_render o h).symm
      _ = batches ((spelling o).render others) := congrArg batches hsame
      _ = others := batches_of_render o h'

/-- A view over two lines, one of which only begins like the line between batches. -/
def viewStatements : List String :=
  ["DROP VIEW [v]", "CREATE VIEW [v] AS\nGO_LIVE\n\nSELECT 1"]

theorem batches_render_views :
    (∀ s ∈ viewStatements, Batch s)
    ∧ batches ((spelling {}).render viewStatements) = viewStatements := by
  have hbatch : ∀ s ∈ viewStatements, Batch s := by
    intro s hs
    simp only [viewStatements, List.mem_cons, List.not_mem_nil, or_false] at hs
    rcases hs with rfl | rfl
    · exact ⟨by decide, by decide, by decide, by decide⟩
    · exact ⟨by decide, by decide, by decide, by decide⟩
  exact ⟨hbatch, (batches_render {}).1 viewStatements hbatch⟩

end SqlServer

end Reconcile
