import Reconcile.CommandLine.Outputs
import Reconcile.Proofs.Runs
import Reconcile.Proofs.WrittenFiles

/-!
# The files that are written

A run writes the script first and the summary after it, so the summary is always there.  It
takes the script's place where the script's path has the extension `json`, since the summary's
path is then the same path; only a path from the command line can have that extension.  For
every other path both files are there, each with its own content (`outputs_kept_iff`).
-/

namespace Reconcile

/-! ## Writing in steps -/

theorem attempting_write_eq_ok_iff {failure : FileFault → Failure} {path content : String}
    {files files' : Files} :
    (attempting failure (Files.disk.write path content)).run.run files = (.ok (), files')
      ↔ files.write path content = .ok files' := by
  let outcome := Files.change (·.write path content) files
  have hattempt : (attempting failure (Files.disk.write path content)).run.run files
      = (outcome.1.mapError failure, outcome.2) := rfl
  rw [hattempt]
  dsimp only [outcome, Files.change]
  cases files.write path content with
  | error fault =>
      constructor
      · intro h
        cases h
      · intro h
        cases h
  | ok after =>
      constructor
      · intro h
        cases h
        rfl
      · intro h
        cases h
        rfl

variable {r : Comparison} {p : OutputPlan} {files files' : Files}

/-- Outputs with a summary are two texts, written one after the other. -/
theorem writeOutputs_ok (hsummary : p.summary = true)
    (h : (writeOutputs Files.disk r p).run.run files = (.ok (), files')) :
    ∃ before between : Files,
      before.write p.path ((r.script p.direction).getD "") = .ok between
        ∧ between.write p.summaryPath (Data.Json.pretty r.encode) = .ok files' := by
  have hwriting : ∀ {before : Files}, (do
      attempting (.writing p.path) (Files.disk.write p.path ((r.script p.direction).getD ""))
      attempting (.writing p.summaryPath)
        (Files.disk.write p.summaryPath (Data.Json.pretty r.encode)) :
        ExceptT Failure (StateM Files) Unit).run.run before = (.ok (), files') →
      ∃ between, before.write p.path ((r.script p.direction).getD "") = .ok between
        ∧ between.write p.summaryPath (Data.Json.pretty r.encode) = .ok files' := by
    intro before h
    obtain ⟨_, between, hscript, hrest⟩ := run_bind_ok h
    exact ⟨between, attempting_write_eq_ok_iff.mp hscript,
      attempting_write_eq_ok_iff.mp hrest⟩
  unfold writeOutputs at h
  simp only [hsummary, if_true] at h
  split at h
  next =>
    obtain ⟨_, before, -, hrest⟩ := run_bind_ok h
    exact ⟨before, hwriting hrest⟩
  next => exact ⟨files, hwriting h⟩

/-- A script in the working directory needs no directory to be made. -/
theorem writeOutputs_of_writes {between : Files} {script : String} (hsummary : p.summary = true)
    (hparent : Path.parent p.path = "") (hscript : r.script p.direction = some script)
    (hfirst : files.write p.path script = .ok between)
    (hsecond : between.write p.summaryPath (Data.Json.pretty r.encode) = .ok files') :
    (writeOutputs Files.disk r p).run.run files = (.ok (), files') := by
  have hwritten : (attempting (.writing p.path) (Files.disk.write p.path script)).run.run files
      = (.ok (), between) := attempting_write_eq_ok_iff.mpr hfirst
  have hsummarised : (attempting (.writing p.summaryPath)
      (Files.disk.write p.summaryPath (Data.Json.pretty r.encode))).run.run between
        = (.ok (), files') := attempting_write_eq_ok_iff.mpr hsecond
  unfold writeOutputs
  simp only [hsummary, hparent, hscript, Option.getD_some, if_true]
  exact (run_bind_eq hwritten).trans hsummarised

/-! ## Both files -/

/-- The script and the summary are in different files. -/
structure Files.KeepsBoth (files : Files) (p : OutputPlan) (script summary : String) : Prop where
  script : files.read p.path = .ok script
  summary : files.read p.summaryPath = .ok summary
  apart : files.locate p.path ≠ files.locate p.summaryPath

/-- No name of a script is a summary's. -/
theorem Direction.scriptName_ne (d : Direction) (stem : String) :
    d.scriptName ≠ stem ++ "." ++ "json" := by
  intro h
  have hlast := congrArg (fun s => s.toList.getLast?) h
  cases d <;> simp [Direction.scriptName] at hlast

namespace OutputPlan

variable {a : Arguments} (settings : Option OutputSettings)

/-- Without a path from the command line the script has the name that its direction gives it. -/
theorem getLast?_parts_of (hnone : a.output = none) :
    ∃ d : Direction, (Path.parts (OutputPlan.of a settings).path).getLast? = some d.scriptName := by
  have hname : ∀ d : Direction, '/' ∉ d.scriptName.toList := by
    intro d
    cases d <;> decide
  unfold OutputPlan.of
  cases settings with
  | some s =>
      simp only [hnone]
      exact ⟨_, Path.getLast?_parts_join s.directory (hname _)⟩
  | none =>
      simp only [hnone]
      exact ⟨_, by rw [Path.parts_of_name (hname _)]; rfl⟩

/-- Only the command line names a script that has a summary's extension. -/
theorem of_hasExtension_iff : Path.HasExtension "json" (OutputPlan.of a settings).path
    ↔ ∃ path, a.output = some path ∧ Path.HasExtension "json" path := by
  cases houtput : a.output with
  | some path =>
      have hpath : (OutputPlan.of a settings).path = path := by
        simp only [OutputPlan.of, houtput]
      simp [hpath]
  | none =>
      obtain ⟨d, hlast⟩ := getLast?_parts_of settings houtput
      unfold Path.HasExtension
      rw [hlast]
      constructor
      · rintro ⟨stem, -, hname⟩
        exact absurd (Option.some.inj hname) (d.scriptName_ne stem)
      · rintro ⟨path, hnone, -⟩
        cases hnone

end OutputPlan

/-- Both files are there unless the two paths are one, and they are one just if the script's
has the extension of the summary's. -/
theorem keepsBoth_iff (hsummary : p.summary = true)
    (h : (writeOutputs Files.disk r p).run.run files = (.ok (), files')) :
    files'.read p.summaryPath = .ok (Data.Json.pretty r.encode)
      ∧ (p.summaryPath = p.path ↔ Path.HasExtension "json" p.path)
      ∧ (files'.KeepsBoth p ((r.script p.direction).getD "") (Data.Json.pretty r.encode)
        ↔ ¬ Path.HasExtension "json" p.path) := by
  obtain ⟨before, between, hscript, hrest⟩ := writeOutputs_ok hsummary h
  obtain ⟨k, k', hlocate, hlocate', hread', hread⟩ := Files.write_write hscript hrest
  obtain ⟨dir, name, -, hparts, hproper, -⟩ := Files.write_ok hscript
  obtain ⟨dir', name', -, hparts', hproper', -⟩ := Files.write_ok hrest
  have hpath := Files.parts_eq_ok hparts
  have hpath' := Files.parts_eq_ok hparts'
  have hsame : p.summaryPath = p.path ↔ Path.HasExtension "json" p.path :=
    Path.withExtension_eq_iff hpath hproper (by decide) (by decide)
  have hsibling : dir' = dir := by
    have hsplit := hpath'.symm.trans (Path.parts_withExtension hpath hproper (by decide))
    exact (List.append_inj' hsplit rfl).1
  subst hsibling
  have hnames : p.summaryPath = p.path ↔ name' = name := by
    rw [← Path.parts_inj, hpath', hpath]
    simp
  have hplaces : k = k' ↔ p.summaryPath = p.path := by
    have hstart := Path.startsWith_sibling hpath hproper.ne_empty hpath' hproper'.ne_empty
    rw [Files.locate_sibling hparts hproper hparts' hproper' hstart hlocate hlocate', hnames]
    exact eq_comm
  refine ⟨hread', hsame, ?_⟩
  constructor
  · intro hboth hjson
    exact hboth.apart (by rw [hsame.mpr hjson])
  · intro hjson
    have hne : k ≠ k' := fun heq => hjson (hsame.mp (hplaces.mp heq))
    refine ⟨hread hne, hread', ?_⟩
    rw [hlocate, hlocate']
    exact fun heq => hne (Except.ok.inj heq)

/-- After the outputs of a scripted comparison were written, the summary is at its path; and
the script of the direction is at its own, in another file, unless the command line named a
path with the extension `json`.  The two paths differ in just the same cases. -/
theorem outputs_kept_iff {a : Arguments} {settings : Option OutputSettings} {script : String}
    (hsummary : (OutputPlan.of a settings).summary = true)
    (hscript : r.script (OutputPlan.of a settings).direction = some script)
    (h : (writeOutputs Files.disk r (.of a settings)).run.run files = (.ok (), files')) :
    files'.read (OutputPlan.of a settings).summaryPath = .ok (Data.Json.pretty r.encode)
      ∧ ((OutputPlan.of a settings).summaryPath = (OutputPlan.of a settings).path
        ↔ ∃ path, a.output = some path ∧ Path.HasExtension "json" path)
      ∧ (files'.KeepsBoth (.of a settings) script (Data.Json.pretty r.encode)
        ↔ ¬ ∃ path, a.output = some path ∧ Path.HasExtension "json" path) := by
  have hboth := keepsBoth_iff hsummary h
  rw [hscript, Option.getD_some, OutputPlan.of_hasExtension_iff] at hboth
  exact hboth

/-! ## A comparison with one view -/

/-- A view that only the source has. -/
def activeView : View :=
  { schema := "public", name := "active", definition := "SELECT 1" }

/-- A scripted comparison with an empty target. -/
def withActiveView : Comparison :=
  (Comparison.between {}
    { dialect := .postgreSql, database := "shop", views := [(activeView.key, activeView)] }
    { dialect := .postgreSql, database := "shop" }).scripted (Spelling.of .postgreSql {})

def createActive : String :=
  "CREATE VIEW \"active\" AS\nSELECT 1;"

theorem withActiveView_script : withActiveView.script .sourceToTarget = some createActive :=
  rfl

/-- The outputs where the command line names a file and asks for a summary. -/
def namedOutputs (path : String) : OutputPlan :=
  .of { output := some path, summary := true } none

/-- A working directory with some texts in it. -/
def inWork (texts : List (String × String)) : Files :=
  { root := .directory [("work", .directory (texts.map fun (name, s) => (name, .text s)))]
    home := ["work"] }

theorem namedOutputs_hasExtension_iff {name : String} (hslash : '/' ∉ name.toList) :
    Path.HasExtension "json" (namedOutputs name).path
      ↔ ∃ stem, stem ≠ "" ∧ name = stem ++ "." ++ "json" := by
  show Path.HasExtension "json" name ↔ _
  rw [Path.HasExtension, Path.parts_of_name hslash]
  simp

/-- Outputs named `shop.sql` come to two files, each as it should be. -/
theorem outputs_kept_shop : ∃ files',
    (writeOutputs Files.disk withActiveView (namedOutputs "shop.sql")).run.run (inWork [])
        = (.ok (), files')
      ∧ files'.KeepsBoth (namedOutputs "shop.sql") createActive
          (Data.Json.pretty withActiveView.encode)
      ∧ (namedOutputs "shop.sql").summaryPath ≠ (namedOutputs "shop.sql").path := by
  let summary := Data.Json.pretty withActiveView.encode
  have hscript : (inWork []).write "shop.sql" createActive
      = .ok (inWork [("shop.sql", createActive)]) := by
    have hstart : "shop.sql".startsWith "/" = false := by decide +kernel
    simp only [Files.write, Files.place, Files.walk, hstart]
    rfl
  have hsummary : (inWork [("shop.sql", createActive)]).write "shop.json" summary
      = .ok (inWork [("shop.sql", createActive), ("shop.json", summary)]) := by
    have hstart : "shop.json".startsWith "/" = false := by decide +kernel
    simp only [Files.write, Files.place, Files.walk, hstart]
    rfl
  have hpath : (namedOutputs "shop.sql").summaryPath = "shop.json" := by decide
  have hrun : (writeOutputs Files.disk withActiveView (namedOutputs "shop.sql")).run.run
      (inWork []) = (.ok (), inWork [("shop.sql", createActive), ("shop.json", summary)]) :=
    writeOutputs_of_writes rfl rfl withActiveView_script hscript (hpath ▸ hsummary)
  have hname : ¬ ∃ path, some "shop.sql" = some path ∧ Path.HasExtension "json" path := by
    rintro ⟨path, hpath, hjson⟩
    obtain rfl := Option.some.inj hpath
    obtain ⟨stem, -, hstem⟩ := (namedOutputs_hasExtension_iff (by decide)).mp hjson
    have hlast := congrArg (fun s => s.toList.getLast?) hstem
    simp at hlast
  obtain ⟨-, hpaths, hboth⟩ := outputs_kept_iff rfl withActiveView_script hrun
  exact ⟨_, hrun, hboth.mpr hname, fun hsame => hname (hpaths.mp hsame)⟩

/-- A summary starts with a brace. -/
theorem head?_pretty_encode (r : Comparison) :
    (Data.Json.pretty r.encode).toList.head? = some '\x7b' := by
  rw [Comparison.encode, Data.Json.pretty, Data.Json.prettyAt]
  simp

/-- Outputs named `shop.json` come to one file, and the script is not in it. -/
theorem summary_replaces_script : ∃ files',
    (writeOutputs Files.disk withActiveView (namedOutputs "shop.json")).run.run (inWork [])
        = (.ok (), files')
      ∧ files'.texts = [(["shop.json"], Data.Json.pretty withActiveView.encode)]
      ∧ (namedOutputs "shop.json").summaryPath = (namedOutputs "shop.json").path
      ∧ Data.Json.pretty withActiveView.encode ≠ createActive
      ∧ ¬ files'.KeepsBoth (namedOutputs "shop.json") createActive
          (Data.Json.pretty withActiveView.encode) := by
  let summary := Data.Json.pretty withActiveView.encode
  have hstart : "shop.json".startsWith "/" = false := by decide +kernel
  have hscript : (inWork []).write "shop.json" createActive
      = .ok (inWork [("shop.json", createActive)]) := by
    simp only [Files.write, Files.place, Files.walk, hstart]
    rfl
  have hsummary : (inWork [("shop.json", createActive)]).write "shop.json" summary
      = .ok (inWork [("shop.json", summary)]) := by
    simp only [Files.write, Files.place, Files.walk, hstart]
    rfl
  have hpaths : (namedOutputs "shop.json").summaryPath = "shop.json" := by decide
  have hrun : (writeOutputs Files.disk withActiveView (namedOutputs "shop.json")).run.run
      (inWork []) = (.ok (), inWork [("shop.json", summary)]) :=
    writeOutputs_of_writes rfl rfl withActiveView_script hscript (hpaths ▸ hsummary)
  refine ⟨_, hrun, rfl, hpaths, ?_, fun hboth => hboth.apart (congrArg _ hpaths.symm)⟩
  intro hsame
  have hhead := congrArg (fun s => s.toList.head?) hsame
  rw [head?_pretty_encode] at hhead
  simp [createActive] at hhead

end Reconcile
