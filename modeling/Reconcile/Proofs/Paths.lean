import Reconcile.CommandLine.Path
import Mathlib.Data.List.DropRight

/-!
# Names in paths

Splitting a path at its slashes and joining the parts again are inverse to each other, so two
paths are one just if their parts are.  The path that `withExtension` makes differs from the
given one in its last part only, and not even there where that part has the extension already
(`withExtension_eq_iff`).  A name that a directory is joined with stays the last part, whatever
the directory ends in (`getLast?_parts_join`).
-/

namespace Reconcile.Path

variable {path extension name : String} {dir : List String} {cs : List Char}

/-- The part of a path leads neither nowhere nor upwards. -/
def Proper (part : String) : Prop :=
  isIdle part = false ∧ part ≠ ".."

theorem Proper.ne_empty (h : Proper name) : name ≠ "" := by
  rintro rfl
  exact absurd h.1 (by decide)

/-- The last part of a path has something in front of a dot, and the extension behind it. -/
def HasExtension (extension path : String) : Prop :=
  ∃ stem, stem ≠ "" ∧ (parts path).getLast? = some (stem ++ "." ++ extension)

/-! ## Parts -/

theorem splitSlash_eq (cs : List Char) : splitSlash cs = cs.splitOn '/' := by
  induction cs with
  | nil => rfl
  | cons c cs ih =>
      rw [splitSlash, List.splitOn_cons_eq_if_modifyHead, ih]
      by_cases hc : c = '/'
      · simp [hc]
      · cases hsplit : cs.splitOn '/' with
        | nil => exact absurd hsplit (List.splitOn_ne_nil '/' cs)
        | cons part rest => simp [hc]

/-- No slash is left in a part. -/
theorem slash_not_mem {part : List Char} (h : part ∈ splitSlash cs) : '/' ∉ part := by
  induction cs generalizing part with
  | nil =>
      rw [splitSlash, List.mem_singleton] at h
      simp [h]
  | cons c cs ih =>
      rw [splitSlash] at h
      split at h
      next =>
        rcases List.mem_cons.mp h with rfl | h
        · exact List.not_mem_nil
        · exact ih h
      next hc =>
        have hslash : '/' ≠ c := fun heq => hc heq.symm
        split at h
        next => simp_all
        next first rest hsplit =>
          rw [hsplit] at ih
          rcases List.mem_cons.mp h with rfl | h
          · exact List.not_mem_cons_of_ne_of_not_mem hslash (ih List.mem_cons_self)
          · exact ih (List.mem_cons_of_mem _ h)

theorem slash_not_mem_parts {part : String} (h : part ∈ parts path) : '/' ∉ part.toList := by
  obtain ⟨l, hl, rfl⟩ := List.mem_map.mp h
  rw [String.toList_ofList]
  exact slash_not_mem hl

theorem parts_eq (path : String) : parts path = (path.toList.splitOn '/').map String.ofList := by
  rw [parts, splitSlash_eq]

theorem joinParts_parts (path : String) : joinParts (parts path) = path := by
  apply String.toList_injective
  rw [joinParts, parts_eq, String.toList_intercalate, List.map_map]
  show ['/'].intercalate ((path.toList.splitOn '/').map (String.toList ∘ String.ofList)) = _
  rw [show String.toList ∘ String.ofList = id from funext fun _ => String.toList_ofList,
    List.map_id, List.intercalate_splitOn]

/-- Parts without slashes are the parts of the path that they make. -/
theorem parts_joinParts {ps : List String} (hne : ps ≠ []) (h : ∀ p ∈ ps, '/' ∉ p.toList) :
    parts (joinParts ps) = ps := by
  have hchars : ∀ l ∈ ps.map String.toList, '/' ∉ l := by
    intro l hl
    obtain ⟨p, hp, rfl⟩ := List.mem_map.mp hl
    exact h p hp
  have hsplit := List.splitOn_intercalate '/' hchars (by simpa using hne)
  rw [parts_eq, joinParts, String.toList_intercalate]
  show (List.splitOn '/' (['/'].intercalate _)).map String.ofList = ps
  rw [hsplit, List.map_map]
  simp [Function.comp_def]

theorem parts_inj {other : String} : parts path = parts other ↔ path = other := by
  constructor
  · intro h
    rw [← joinParts_parts path, h, joinParts_parts]
  · rintro rfl
    rfl

theorem startsWith_slash_iff (hne : path ≠ "") :
    path.startsWith "/" = true ↔ (parts path).head? = some "" := by
  rw [String.startsWith_string_iff, parts_eq]
  cases hcs : path.toList with
  | nil => exact absurd (String.toList_eq_nil_iff.mp hcs) hne
  | cons c cs =>
      rw [List.splitOn_cons_eq_if_modifyHead]
      by_cases hc : c = '/'
      · simp [hc]
      · cases hsplit : cs.splitOn '/' with
        | nil => exact absurd hsplit (List.splitOn_ne_nil '/' cs)
        | cons part rest => simp [hc, Ne.symm hc]

/-- Paths to siblings start from the same place. -/
theorem startsWith_sibling {other otherName : String} (hparts : parts path = dir ++ [name])
    (hname : name ≠ "") (hparts' : parts other = dir ++ [otherName]) (hname' : otherName ≠ "") :
    other.startsWith "/" = path.startsWith "/" := by
  have hnonempty : ∀ {path name}, parts path = dir ++ [name] → name ≠ "" → path ≠ "" := by
    rintro _ name hparts hname rfl
    have hlast : [""].getLast? = some name :=
      (congrArg List.getLast? (show [""] = dir ++ [name] from hparts)).trans
        List.getLast?_concat
    exact hname (Option.some.inj hlast).symm
  rw [Bool.eq_iff_iff, startsWith_slash_iff (hnonempty hparts hname),
    startsWith_slash_iff (hnonempty hparts' hname'), hparts, hparts']
  cases dir with
  | nil => simp [hname, hname']
  | cons part dir => simp

/-! ## Extensions -/

/-- The stem is what stands in front of the last dot. -/
theorem stemChars_append {stem ending : List Char} (hstem : stem ≠ []) (hending : '.' ∉ ending) :
    stemChars (stem ++ '.' :: ending) = stem := by
  have hreverse : (stem ++ '.' :: ending).reverse = ending.reverse ++ '.' :: stem.reverse := by
    simp
  have hall : ∀ c ∈ ending.reverse, (c != '.') = true := by
    intro c hc
    rw [List.mem_reverse] at hc
    simpa using fun heq : c = '.' => hending (heq ▸ hc)
  unfold stemChars
  rw [hreverse, List.dropWhile_append_of_pos hall]
  simp [hstem]

theorem stemChars_isPrefix (name : List Char) : stemChars name <+: name := by
  unfold stemChars
  split
  next => exact List.prefix_rfl
  next c before hdrop =>
    split
    next => exact List.prefix_rfl
    next =>
      have hsuffix : before <:+ name.reverse :=
        (List.suffix_cons c before).trans (hdrop ▸ List.dropWhile_suffix _)
      simpa using List.reverse_prefix.mpr hsuffix

theorem stemChars_ne_nil {name : List Char} (h : name ≠ []) : stemChars name ≠ [] := by
  unfold stemChars
  split
  next => exact h
  next =>
    split
    next => exact h
    next hbefore => simpa using hbefore

section WithExtension

variable (hparts : parts path = dir ++ [name]) (hproper : Proper name)

include hparts hproper

theorem withExtension_eq (extension : String) : withExtension extension path
    = joinParts (dir ++ [String.ofList (stemChars name.toList) ++ "." ++ extension]) := by
  have hkept : dropIdle (dir ++ [name]) = dir ++ [name] :=
    List.rdropWhile_concat_neg isIdle dir name (by simp [hproper.1])
  unfold withExtension
  simp only [hparts, hkept, List.getLast?_concat, List.dropLast_concat]
  split
  next hnone => cases hnone
  next hup => exact absurd (Option.some.inj hup) hproper.2
  next other _ hother =>
    obtain rfl := Option.some.inj hother
    rfl

variable (hslash : '/' ∉ extension.toList)

include hslash

/-- Only the last part is another. -/
theorem parts_withExtension : parts (withExtension extension path)
    = dir ++ [String.ofList (stemChars name.toList) ++ "." ++ extension] := by
  rw [withExtension_eq hparts hproper]
  apply parts_joinParts (by simp)
  intro p hp
  have hof : ∀ q ∈ dir ++ [name], '/' ∉ q.toList := fun q hq =>
    slash_not_mem_parts (hparts ▸ hq)
  rcases List.mem_append.mp hp with hp | hp
  · exact hof p (List.mem_append_left _ hp)
  · obtain rfl := List.mem_singleton.mp hp
    have hstem : '/' ∉ stemChars name.toList := fun hmem =>
      hof name (by simp) ((stemChars_isPrefix name.toList).subset hmem)
    simp [hstem, hslash]

variable (hdot : '.' ∉ extension.toList)

include hdot

/-- The path stays as it is just if its file has the extension. -/
theorem withExtension_eq_iff :
    withExtension extension path = path ↔ HasExtension extension path := by
  rw [← parts_inj, parts_withExtension hparts hproper hslash, hparts]
  simp only [List.append_cancel_left_eq, List.cons.injEq, and_true]
  unfold HasExtension
  rw [hparts, List.getLast?_concat]
  have hne : name.toList ≠ [] := fun hnil => hproper.ne_empty (String.toList_eq_nil_iff.mp hnil)
  constructor
  · intro h
    refine ⟨String.ofList (stemChars name.toList), ?_, congrArg some h.symm⟩
    intro hempty
    apply stemChars_ne_nil hne
    simpa using congrArg String.toList hempty
  · rintro ⟨stem, hstem, hname⟩
    obtain rfl := Option.some.inj hname
    have hchars : (stem ++ "." ++ extension).toList = stem.toList ++ '.' :: extension.toList := by
      simp
    rw [hchars, stemChars_append _ hdot, String.ofList_toList]
    exact fun hnil => hstem (String.toList_eq_nil_iff.mp hnil)

end WithExtension

/-! ## Names in directories -/

theorem parts_of_name (hname : '/' ∉ name.toList) : parts name = [name] := by
  have hsingle : name.toList.splitOn '/' = [name.toList] := List.splitOn_eq_singleton hname
  rw [parts_eq, hsingle]
  simp

theorem getLast?_parts (front : List Char) (hname : '/' ∉ name.toList)
    (hpath : path.toList = front ++ '/' :: name.toList) : (parts path).getLast? = some name := by
  have hsingle : name.toList.splitOn '/' = [name.toList] := List.splitOn_eq_singleton hname
  rw [parts_eq, hpath, List.splitOn_append_cons_self, hsingle]
  simp

/-- The name that a directory is joined with is the last part. -/
theorem getLast?_parts_join (directory : String) (hname : '/' ∉ name.toList) :
    (parts (join directory name)).getLast? = some name := by
  unfold join
  split
  next =>
    rw [parts_of_name hname]
    rfl
  next =>
    split
    next hends =>
      rw [String.endsWith_eq_endsWith_toSlice, String.Slice.endsWith_string_iff] at hends
      obtain ⟨front, hfront⟩ := hends
      have hdirectory : directory.toList = front ++ ['/'] := by
        simpa using hfront.symm
      exact getLast?_parts front hname (by simp [hdirectory])
    next => exact getLast?_parts directory.toList hname (by simp)

end Reconcile.Path
