import Reconcile.CommandLine.Files
import Reconcile.Proofs.Paths
import Reconcile.Proofs.Plans
import Mathlib.Data.List.DropRight

/-!
# What a written file changes

A path is walked from directory to directory, so whether it still leads to its file after
another one was written is a question about the whole way, parts that lead upwards included.
Writing a text puts one entry into a directory that is there, and never in place of a
directory (`Entry.Writes`).  Every directory on a way is therefore still there, and a walk goes
where it went (`Files.walk_follows`); a text that was read is read again, unless it is the one
that was replaced (`Files.read_kept`).  A path that `write` was given leads to the text
(`Files.write_ok`, `Files.write_write`), and siblings are in one file just if they have one name
(`Files.locate_sibling`).
-/

namespace Reconcile

/-! ## Trees of entries -/

namespace Entry

variable {name other : String} {e root : Entry} {entries : List (String × Entry)}

theorem lookup_set_self (name : String) (e : Entry) (entries : List (String × Entry)) :
    (set name e entries).lookup name = some e := by
  induction entries with
  | nil => simp [set]
  | cons entry rest ih =>
      obtain ⟨n, old⟩ := entry
      rw [set]
      split
      next h => simp [h]
      next h =>
        have hne : (name == n) = false := by simpa using fun heq : name = n => h heq.symm
        rw [List.lookup_cons, hne]
        exact ih

theorem lookup_set_of_ne (h : other ≠ name) (e : Entry) (entries : List (String × Entry)) :
    (set name e entries).lookup other = entries.lookup other := by
  induction entries with
  | nil => simp [set, h]
  | cons entry rest ih =>
      obtain ⟨n, old⟩ := entry
      rw [set]
      split
      next hn =>
        have hne : (other == n) = false := by simpa [hn] using h
        rw [List.lookup_cons, List.lookup_cons, hne]
      next => rw [List.lookup_cons, List.lookup_cons, ih]

theorem find?_append (e : Entry) (l l' : Location) :
    e.find? (l ++ l') = (e.find? l).bind (·.find? l') := by
  induction l generalizing e with
  | nil => simp [find?]
  | cons name below ih =>
      cases e with
      | text content => rfl
      | directory entries =>
          rw [List.cons_append, find?, find?]
          cases entries.lookup name with
          | none => rfl
          | some e => exact ih e

theorem find?_concat {dir : Location} (h : root.find? dir = some (.directory entries))
    (name : String) : root.find? (dir ++ [name]) = entries.lookup name := by
  rw [find?_append, h]
  show (entries.lookup name).bind (·.find? []) = _
  cases entries.lookup name <;> rfl

/-- One tree comes from another by writing a text at a location. -/
structure Writes (l : Location) (content : String) (root root' : Entry) : Prop where
  written : root'.find? l = some (.text content)
  /-- Texts elsewhere stay as they are. -/
  texts : ∀ k s, k ≠ l → root.find? k = some (.text s) → root'.find? k = some (.text s)
  /-- Directories stay directories. -/
  directories : ∀ k es, root.find? k = some (.directory es) →
    ∃ es', root'.find? k = some (.directory es')

/-- What was somewhere may have been replaced, but something is there. -/
theorem Writes.exists_entry {l k : Location} {content : String} {root' : Entry}
    (h : Writes l content root root') (hfound : root.find? k = some e) :
    ∃ e', root'.find? k = some e' := by
  cases e with
  | directory es =>
      obtain ⟨es', hes'⟩ := h.directories k es hfound
      exact ⟨_, hes'⟩
  | text s =>
      rcases eq_or_ne k l with rfl | hne
      · exact ⟨_, h.written⟩
      · exact ⟨_, h.texts k s hne hfound⟩

/-- What is written in one entry of a directory is written in the directory. -/
theorem writes_entry {l : Location} {content : String} {e' : Entry}
    (hwritten : e'.find? l = some (.text content))
    (h : ∀ e, entries.lookup name = some e → Writes l content e e') :
    Writes (name :: l) content (.directory entries) (.directory (set name e' entries)) := by
  have hself := lookup_set_self name e' entries
  have hfind : ∀ {es : List (String × Entry)} {n k x}, (directory es).find? (n :: k) = some x ↔
      ∃ e, es.lookup n = some e ∧ e.find? k = some x := by
    intro es n k x
    rw [find?, Option.bind_eq_some_iff]
  constructor
  case written => exact hfind.mpr ⟨e', hself, hwritten⟩
  case texts =>
    intro k s hk hfound
    cases k with
    | nil => cases hfound
    | cons n below =>
        obtain ⟨e, hentry, hbelow⟩ := hfind.mp hfound
        rcases eq_or_ne n name with rfl | hne
        · have hother : below ≠ l := fun hsame => hk (hsame ▸ rfl)
          exact hfind.mpr ⟨e', hself, (h e hentry).texts below s hother hbelow⟩
        · exact hfind.mpr ⟨e, (lookup_set_of_ne hne e' entries).trans hentry, hbelow⟩
  case directories =>
    intro k es hfound
    cases k with
    | nil => exact ⟨_, rfl⟩
    | cons n below =>
        obtain ⟨e, hentry, hbelow⟩ := hfind.mp hfound
        rcases eq_or_ne n name with rfl | hne
        · obtain ⟨es', hes'⟩ := (h e hentry).directories below es hbelow
          exact ⟨es', hfind.mpr ⟨e', hself, hes'⟩⟩
        · exact ⟨es, hfind.mpr ⟨e, (lookup_set_of_ne hne e' entries).trans hentry, hbelow⟩⟩

/-- One text in place of another. -/
theorem writes_text (old content : String) : Writes [] content (.text old) (.text content) := by
  constructor
  case written => rfl
  case texts =>
    intro k s hk hfound
    cases k with
    | nil => exact absurd rfl hk
    | cons n below => cases hfound
  case directories =>
    intro k es hfound
    cases k <;> cases hfound

/-- A text may be put into any directory, unless a directory of its name is in it. -/
theorem writes_put {dir : Location} (content : String)
    (hdir : root.find? dir = some (.directory entries))
    (hname : ∀ es, entries.lookup name ≠ some (.directory es)) :
    Writes (dir ++ [name]) content root (root.put (dir ++ [name]) (.text content)) := by
  induction dir generalizing root with
  | nil =>
      obtain rfl := Option.some.inj hdir
      rw [List.nil_append, put, put]
      apply writes_entry rfl
      intro e hentry
      cases e with
      | text old => exact writes_text old content
      | directory es => exact absurd hentry (hname es)
  | cons d dir ih =>
      cases root with
      | text s => cases hdir
      | directory es =>
          rw [find?] at hdir
          cases hentry : es.lookup d with
          | none => rw [hentry] at hdir; cases hdir
          | some e =>
              rw [hentry] at hdir
              have hbelow := ih hdir
              rw [List.cons_append, put, hentry]
              apply writes_entry hbelow.written
              intro e' hentry'
              obtain rfl : e = e' := Option.some.inj (hentry.symm.trans hentry')
              exact hbelow

end Entry

/-! ## Walks -/

namespace Trail

/-- What a trail has of the entries on its way is what the tree has. -/
def Stands (root : Entry) : Trail → Prop
  | [] => True
  | (name, e) :: t => root.find? (location ((name, e) :: t)) = some e ∧ Stands root t

theorem stands_nil (root : Entry) : Stands root [] :=
  trivial

theorem location_cons (name : String) (e : Entry) (t : Trail) :
    location ((name, e) :: t) = location t ++ [name] := by
  simp [location]

theorem location_tail (t : Trail) : location t.tail = (location t).dropLast := by
  cases t with
  | nil => rfl
  | cons entry t => simp [location]

theorem Stands.tail {root : Entry} {t : Trail} (h : t.Stands root) : Stands root t.tail := by
  cases t with
  | nil => exact h
  | cons entry t => exact h.2

end Trail

namespace Files

variable {files files' : Files} {t t' u : Trail} {part path content : String}

theorem find?_location (h : t.Stands files.root) :
    files.root.find? t.location = some (files.current t) := by
  cases t with
  | nil => rfl
  | cons entry t => exact h.1

/-- One part of a path leads on from a directory, and only there. -/
theorem step_eq_ok_iff : files.step t part = .ok u ↔ ∃ es, files.current t = .directory es ∧
    ((Path.isIdle part = true ∧ u = t) ∨ (Path.isIdle part = false ∧ part = ".." ∧ u = t.tail)
      ∨ (Path.Proper part ∧ part.utf8ByteSize ≤ maxName
        ∧ ∃ e, es.lookup part = some e ∧ u = (part, e) :: t)) := by
  unfold step entries look Path.Proper
  cases hcurrent : files.current t with
  | text s => simp [bind, Except.bind]
  | directory es =>
      cases hidle : Path.isIdle part with
      | true => simp [bind, Except.bind, pure, Except.pure, eq_comm]
      | false =>
          by_cases hup : part = ".."
          · simp [bind, Except.bind, pure, Except.pure, hup, eq_comm]
          · by_cases hsize : maxName < part.utf8ByteSize
            · have hsize' : ¬ part.utf8ByteSize ≤ maxName := by omega
              simp [bind, Except.bind, hup, hsize, hsize']
            · have hsize' : part.utf8ByteSize ≤ maxName := by omega
              cases hentry : es.lookup part with
              | none => simp [bind, Except.bind, hup, hsize, hentry]
              | some e =>
                  simp [bind, Except.bind, pure, Except.pure, hup, hsize, hsize', hentry, eq_comm]

/-- A named entry is found where the directory is that the walk has come to. -/
theorem find?_named {es : List (String × Entry)} (h : t.Stands files.root)
    (hcurrent : files.current t = .directory es) (name : String) :
    files.root.find? (t.location ++ [name]) = es.lookup name :=
  Entry.find?_concat ((find?_location h).trans (congrArg some hcurrent)) name

theorem step_stands (h : t.Stands files.root) (hstep : files.step t part = .ok u) :
    u.Stands files.root := by
  obtain ⟨es, hcurrent, hcase⟩ := step_eq_ok_iff.mp hstep
  rcases hcase with ⟨-, rfl⟩ | ⟨-, -, rfl⟩ | ⟨-, -, e, hentry, rfl⟩
  · exact h
  · exact h.tail
  · have hfound := (find?_named h hcurrent part).trans hentry
    rw [← Trail.location_cons part e] at hfound
    exact ⟨hfound, h⟩

theorem walk_stands {ps : List String} (h : t.Stands files.root)
    (hwalk : ps.foldlM files.step t = .ok u) : u.Stands files.root := by
  induction ps generalizing t with
  | nil =>
      cases hwalk
      exact h
  | cons part ps ih =>
      rw [List.foldlM_cons] at hwalk
      obtain ⟨v, hstep, hrest⟩ := bind_eq_ok.mp hwalk
      exact ih (step_stands h hstep) hrest

section Follows

variable {l : Location} (hwrites : Entry.Writes l content files.root files'.root)

include hwrites

/-- One part leads from the same place to the same place. -/
theorem step_follows (h : t.Stands files.root) (h' : t'.Stands files'.root)
    (hsame : t'.location = t.location) (hstep : files.step t part = .ok u) :
    ∃ u', files'.step t' part = .ok u' ∧ u'.location = u.location := by
  obtain ⟨es, hcurrent, hcase⟩ := step_eq_ok_iff.mp hstep
  have hdirectory : ∃ es', files'.current t' = .directory es' := by
    obtain ⟨es', hes'⟩ := hwrites.directories t.location es (hcurrent ▸ find?_location h)
    rw [← hsame, find?_location h'] at hes'
    exact ⟨es', Option.some.inj hes'⟩
  obtain ⟨es', hcurrent'⟩ := hdirectory
  rcases hcase with ⟨hidle, rfl⟩ | ⟨hidle, hup, rfl⟩ | ⟨hproper, hsize, e, hentry, rfl⟩
  case inl =>
    exact ⟨t', step_eq_ok_iff.mpr ⟨es', hcurrent', .inl ⟨hidle, rfl⟩⟩, hsame⟩
  case inr.inl =>
    refine ⟨t'.tail, step_eq_ok_iff.mpr ⟨es', hcurrent', .inr (.inl ⟨hidle, hup, rfl⟩)⟩, ?_⟩
    rw [Trail.location_tail, Trail.location_tail, hsame]
  case inr.inr =>
    have hfound := (find?_named h hcurrent part).trans hentry
    obtain ⟨e', hfound'⟩ := hwrites.exists_entry hfound
    rw [← hsame, find?_named h' hcurrent' part] at hfound'
    refine ⟨(part, e') :: t',
      step_eq_ok_iff.mpr ⟨es', hcurrent', .inr (.inr ⟨hproper, hsize, e', hfound', rfl⟩)⟩, ?_⟩
    rw [Trail.location_cons, Trail.location_cons, hsame]

/-- A walk goes where it went before the text was written. -/
theorem walk_follows {ps : List String} (h : t.Stands files.root) (h' : t'.Stands files'.root)
    (hsame : t'.location = t.location) (hwalk : ps.foldlM files.step t = .ok u) :
    ∃ u', ps.foldlM files'.step t' = .ok u' ∧ u'.location = u.location := by
  induction ps generalizing t t' with
  | nil =>
      cases hwalk
      exact ⟨t', rfl, hsame⟩
  | cons part ps ih =>
      rw [List.foldlM_cons] at hwalk
      obtain ⟨v, hstep, hrest⟩ := bind_eq_ok.mp hwalk
      obtain ⟨v', hstep', hsame⟩ := step_follows hwrites h h' hsame hstep
      have hstands := step_stands h hstep
      have hstands' := step_stands h' hstep'
      obtain ⟨u', hrest', hlocation⟩ := ih hstands hstands' hsame hrest
      refine ⟨u', ?_, hlocation⟩
      rw [List.foldlM_cons]
      exact bind_eq_ok.mpr ⟨v', hstep', hrest'⟩

end Follows

/-! ## Paths to files -/

theorem parts_eq_ok {ps : List String} (h : parts path = .ok ps) :
    Path.parts path = ps := by
  unfold parts at h
  split at h
  next => cases h
  next =>
    split at h
    next => cases h
    next =>
      split at h
      next => cases h
      next => exact Except.ok.inj h

/-- Where a path leads, as a location. -/
def locate (files : Files) (path : String) : Except FileFault Location :=
  (files.reach path).map Trail.location

/-- The parts of a whole way: from the root, through the working directory unless the path
starts with a slash. -/
def way (files : Files) (path : String) (ps : List String) : List String :=
  (if path.startsWith "/" then [] else files.home) ++ ps

theorem locate_eq_ok_iff {k : Location} : files.locate path = .ok k ↔
    ∃ ps t, parts path = .ok ps ∧ (files.way path ps).foldlM files.step [] = .ok t
      ∧ t.location = k := by
  unfold locate reach walk way
  simp only [map_eq_ok, bind_eq_ok]
  constructor
  · rintro ⟨t, ⟨ps, hps, hwalk⟩, rfl⟩
    exact ⟨ps, t, hps, hwalk, rfl⟩
  · rintro ⟨ps, t, hps, hwalk, rfl⟩
    exact ⟨t, ⟨ps, hps, hwalk⟩, rfl⟩

/-- A path goes as far as its last part leads from where the others lead. -/
theorem way_concat_eq_ok_iff {dir : List String} {name : String} :
    (files.way path (dir ++ [name])).foldlM files.step [] = .ok u ↔
      ∃ t, (files.way path dir).foldlM files.step [] = .ok t ∧ files.step t name = .ok u := by
  unfold way
  rw [← List.append_assoc, List.foldlM_append, bind_eq_ok]
  simp

/-- A text is read where its path leads. -/
theorem read_eq_ok_iff {s : String} : files.read path = .ok s ↔
    ∃ k, files.locate path = .ok k ∧ files.root.find? k = some (.text s) := by
  have hread : files.read path = .ok s ↔
      ∃ t, files.reach path = .ok t ∧ files.current t = .text s := by
    unfold read
    rw [bind_eq_ok]
    apply exists_congr
    intro t
    cases hcurrent : files.current t with
    | text old => simp [pure, Except.pure]
    | directory es => simp
  have hstands : ∀ t, files.reach path = .ok t → t.Stands files.root := by
    intro t ht
    obtain ⟨ps, hps, hwalk⟩ := bind_eq_ok.mp ht
    exact walk_stands (Trail.stands_nil _) hwalk
  rw [hread]
  constructor
  · rintro ⟨t, ht, hcurrent⟩
    refine ⟨t.location, map_eq_ok.mpr ⟨t, ht, rfl⟩, ?_⟩
    rw [find?_location (hstands t ht), hcurrent]
  · rintro ⟨k, hk, hfound⟩
    obtain ⟨t, ht, rfl⟩ := map_eq_ok.mp hk
    rw [find?_location (hstands t ht)] at hfound
    exact ⟨t, ht, Option.some.inj hfound⟩

section Kept

variable {l k : Location} (hwrites : Entry.Writes l content files.root files'.root)
  (hhome : files'.home = files.home)

include hwrites hhome

theorem locate_kept (h : files.locate path = .ok k) : files'.locate path = .ok k := by
  obtain ⟨ps, t, hps, hwalk, rfl⟩ := locate_eq_ok_iff.mp h
  obtain ⟨t', hwalk', hsame⟩ :=
    walk_follows hwrites (Trail.stands_nil _) (Trail.stands_nil _) rfl hwalk
  have hway : files'.way path ps = files.way path ps := by rw [way, way, hhome]
  exact locate_eq_ok_iff.mpr ⟨ps, t', hps, hway ▸ hwalk', hsame⟩

/-- A text that was read can be read after another was written. -/
theorem read_kept {s : String} (hlocate : files.locate path = .ok k) (hne : k ≠ l)
    (hread : files.read path = .ok s) : files'.read path = .ok s := by
  obtain ⟨k', hk', hfound⟩ := read_eq_ok_iff.mp hread
  obtain rfl : k = k' := Except.ok.inj (hlocate.symm.trans hk')
  exact read_eq_ok_iff.mpr ⟨k, locate_kept hwrites hhome hlocate, hwrites.texts k s hne hfound⟩

/-- The directory is where it was, and the text is in it. -/
theorem locate_written {dir : List String} {es : List (String × Entry)}
    (hparts : parts path = .ok (dir ++ [part]))
    (hwalk : (files.way path dir).foldlM files.step [] = .ok t)
    (hcurrent : files.current t = .directory es) (hl : l = t.location ++ [part])
    (hproper : Path.Proper part) (hsize : part.utf8ByteSize ≤ maxName) :
    files'.locate path = .ok l := by
  subst hl
  have hstands := walk_stands (Trail.stands_nil _) hwalk
  obtain ⟨t', hwalk', hsame⟩ :=
    walk_follows hwrites (Trail.stands_nil _) (Trail.stands_nil _) rfl hwalk
  have hstands' := walk_stands (Trail.stands_nil _) hwalk'
  obtain ⟨es', hes'⟩ := hwrites.directories t.location es (hcurrent ▸ find?_location hstands)
  rw [← hsame, find?_location hstands'] at hes'
  have hcurrent' : files'.current t' = .directory es' := Option.some.inj hes'
  have hentry : es'.lookup part = some (.text content) := by
    rw [← find?_named hstands' hcurrent' part, hsame]
    exact hwrites.written
  have hway : files'.way path dir = files.way path dir := by rw [way, way, hhome]
  rw [← hway] at hwalk'
  refine locate_eq_ok_iff.mpr ⟨dir ++ [part], (part, .text content) :: t', hparts, ?_, ?_⟩
  · exact way_concat_eq_ok_iff.mpr ⟨t', hwalk', step_eq_ok_iff.mpr
      ⟨es', hcurrent', .inr (.inr ⟨hproper, hsize, _, hentry, rfl⟩)⟩⟩
  · rw [Trail.location_cons, hsame]

end Kept

/-- The last part of a path that names an entry is the entry's name, and the parts before it
lead to the directory that the entry would be in. -/
theorem place_ok {p : Place} (h : files.place path = .ok p) (hname : p.isUnnamed = false)
    (hslashed : p.slashed = false) : ∃ dir, parts path = .ok (dir ++ [p.name])
      ∧ (files.way path dir).foldlM files.step [] = .ok p.trail
      ∧ files.current p.trail = .directory p.entries := by
  unfold place at h
  obtain ⟨all, hall, h⟩ := bind_eq_ok.mp h
  obtain ⟨trail, htrail, h⟩ := bind_eq_ok.mp h
  obtain ⟨es, hentries, hp⟩ := bind_eq_ok.mp h
  cases hp
  -- No slash follows the name, so nothing was taken off at the end.
  have hkept : List.rdropWhile String.isEmpty all = all := by
    have hfront := List.rdropWhile_prefix String.isEmpty all
    apply hfront.eq_of_length_le
    simpa [List.rdropWhile] using hslashed
  unfold List.rdropWhile at hkept
  simp only [hkept] at htrail hname ⊢
  have hne : all ≠ [] := by
    rintro rfl
    cases hname
  refine ⟨all.dropLast, ?_, htrail, ?_⟩
  · rw [List.getLast?_eq_some_getLast hne, Option.getD_some, List.dropLast_concat_getLast hne]
    exact hall
  · unfold entries at hentries
    cases hcurrent : files.current trail with
    | directory es' =>
        rw [hcurrent] at hentries
        exact congrArg _ (Except.ok.inj hentries)
    | text s => rw [hcurrent] at hentries; cases hentries

/-- A path that a text was written to ends in the text's name, and leads to the text. -/
theorem write_ok (h : files.write path content = .ok files') : ∃ dir name k,
    parts path = .ok (dir ++ [name]) ∧ Path.Proper name ∧ files'.home = files.home
      ∧ Entry.Writes k content files.root files'.root ∧ files'.locate path = .ok k := by
  unfold write at h
  obtain ⟨p, hplace, h⟩ := bind_eq_ok.mp h
  cases hrefused : p.isUnnamed || p.slashed with
  | true => simp [hrefused] at h
  | false =>
      obtain ⟨hname, hslashed⟩ := Bool.or_eq_false_iff.mp hrefused
      obtain ⟨dir, hparts, hwalk, hcurrent⟩ := place_ok hplace hname hslashed
      have hproper : Path.Proper p.name := by
        simpa [Place.isUnnamed, Path.Proper] using hname
      have hstands : p.trail.Stands files.root := walk_stands (Trail.stands_nil _) hwalk
      have hdir : files.root.find? p.trail.location = some (.directory p.entries) := by
        rw [find?_location hstands, hcurrent]
      simp only [hrefused, Bool.false_eq_true, if_false] at h
      obtain ⟨found, hlook, h⟩ := bind_eq_ok.mp h
      have hfree : found = p.entries.lookup p.name ∧ p.name.utf8ByteSize ≤ maxName := by
        unfold look at hlook
        split at hlook
        next => cases hlook
        next hsize => exact ⟨(Except.ok.inj hlook).symm, by omega⟩
      obtain ⟨rfl, hsize⟩ := hfree
      have hput : (∀ es, p.entries.lookup p.name ≠ some (.directory es))
          ∧ files.put p.location (.text content) = files' := by
        split at h
        next => cases h
        next hnot => exact ⟨hnot, Except.ok.inj h⟩
      obtain ⟨hnot, rfl⟩ := hput
      have hwrites := Entry.writes_put content hdir hnot
      refine ⟨dir, p.name, p.location, hparts, hproper, rfl, hwrites, ?_⟩
      exact locate_written hwrites rfl hparts hwalk hcurrent rfl hproper hsize

/-- Of two texts that were written one after the other the second is there, and the first is
unless it was in the same place. -/
theorem write_write {before between : Files} {other first second : String}
    (hfirst : before.write path first = .ok between)
    (hsecond : between.write other second = .ok files') :
    ∃ k k', files'.locate path = .ok k ∧ files'.locate other = .ok k'
      ∧ files'.read other = .ok second ∧ (k ≠ k' → files'.read path = .ok first) := by
  obtain ⟨-, -, k, -, -, -, hwrites, hlocate⟩ := write_ok hfirst
  obtain ⟨-, -, k', -, -, hhome, hwrites', hlocate'⟩ := write_ok hsecond
  have hread : between.read path = .ok first :=
    read_eq_ok_iff.mpr ⟨k, hlocate, hwrites.written⟩
  have hread' : files'.read other = .ok second :=
    read_eq_ok_iff.mpr ⟨k', hlocate', hwrites'.written⟩
  exact ⟨k, k', locate_kept hwrites' hhome hlocate, hlocate', hread',
    fun hne => read_kept hwrites' hhome hlocate hne hread⟩

/-- A path with a name at its end leads to that name, in the directory that the rest of it
leads to. -/
theorem locate_concat {dir : List String} {name : String} {k : Location}
    (hparts : parts path = .ok (dir ++ [name])) (hproper : Path.Proper name)
    (hlocate : files.locate path = .ok k) :
    ∃ t, (files.way path dir).foldlM files.step [] = .ok t ∧ k = t.location ++ [name] := by
  obtain ⟨ps, u, hps, hwalk, rfl⟩ := locate_eq_ok_iff.mp hlocate
  obtain rfl : dir ++ [name] = ps := Except.ok.inj (hparts.symm.trans hps)
  obtain ⟨t, ht, hstep⟩ := way_concat_eq_ok_iff.mp hwalk
  obtain ⟨es, -, hcase⟩ := step_eq_ok_iff.mp hstep
  rcases hcase with ⟨hidle, -⟩ | ⟨-, hup, -⟩ | ⟨-, -, e, -, rfl⟩
  · rw [hproper.1] at hidle
    cases hidle
  · exact absurd hup hproper.2
  · exact ⟨t, ht, Trail.location_cons name e t⟩

/-- Paths to siblings lead to one place just if their names are one. -/
theorem locate_sibling {other name otherName : String} {dir : List String} {k k' : Location}
    (hparts : parts path = .ok (dir ++ [name])) (hproper : Path.Proper name)
    (hparts' : parts other = .ok (dir ++ [otherName])) (hproper' : Path.Proper otherName)
    (hstart : other.startsWith "/" = path.startsWith "/")
    (hlocate : files.locate path = .ok k) (hlocate' : files.locate other = .ok k') :
    k = k' ↔ name = otherName := by
  obtain ⟨t, ht, rfl⟩ := locate_concat hparts hproper hlocate
  obtain ⟨t', ht', rfl⟩ := locate_concat hparts' hproper' hlocate'
  have hway : files.way other dir = files.way path dir := by rw [way, way, hstart]
  obtain rfl : t = t' := Except.ok.inj (ht.symm.trans (hway ▸ ht'))
  simp

end Files

end Reconcile
