import Reconcile.Proofs.Accounting

/-!
# Items against consolidated scripts

Whether an object can be scripted is decided twice.  The item's own scripts need the
creation of both sides and the way forward; each consolidated script needs the plan
of its direction and nothing else.  `Item.Agrees` says that the two come to the same:
an item with a fault has no scripts and no part in either consolidated script, and an
item without one has all its scripts and its part.

An item without a fault always agrees.  One with a fault need not: a view without a
definition cannot be created and has a fault for it, but it can be dropped, and it is.
`agrees_iff` names the items that agree.
-/

namespace Reconcile

/-! ## Scripts that are not empty -/

namespace Spelling

variable {e : Dialect} {o : Options} {texts : List String}

theorem of_terminator_ne_empty (e : Dialect) (o : Options) :
    (Spelling.of e o).terminator ≠ "" := by
  cases e with
  | sqlServer => exact (by decide : "\nGO" ≠ "")
  | mySql => exact (by decide : ";" ≠ "")
  | postgreSql => exact (by decide : ";" ≠ "")

/-- A script of any statements at all is not empty. -/
theorem render_ne_empty (h : texts ≠ []) : (Spelling.of e o).render texts ≠ "" := by
  cases texts with
  | nil => exact absurd rfl h
  | cons text rest =>
      intro hempty
      have hbegins : Begins (text ++ (Spelling.of e o).terminator)
          ((Spelling.of e o).render (text :: rest)) := joined_begins _ _ _
      rw [hempty, Begins, String.toList_append] at hbegins
      have hnil := (List.append_eq_nil_iff.mp (List.prefix_nil.mp hbegins)).2
      exact of_terminator_ne_empty e o (String.toList_eq_nil_iff.mp hnil)

theorem createTable_ne_nil {t : Table}
    (h : (Spelling.of e o).createTable t = .ok texts) : texts ≠ [] := by
  cases e with
  | sqlServer =>
      cases h
      exact List.cons_ne_nil _ _
  | mySql =>
      change MySql.createTable o t = _ at h
      unfold MySql.createTable at h
      split at h
      · cases h
      · cases h
        exact List.cons_ne_nil _ _
  | postgreSql =>
      cases h
      exact List.cons_ne_nil _ _

end Spelling

namespace Category

variable {e : Dialect} {o : Options} {c : Category} {object : c.Object} {p : Plan}

/-- A plan that creates an object says something. -/
theorem planCreate_ne_nil (h : c.planCreate (Spelling.of e o) object = .ok p) :
    p.statements ≠ [] := by
  cases c with
  | sequence =>
      obtain ⟨text, -, rfl⟩ := map_eq_ok.mp h
      exact List.cons_ne_nil _ _
  | table =>
      obtain ⟨creates, _, _, hcreates, -, -, rfl⟩ := Table.planCreate_eq_ok.mp h
      have hne := Spelling.createTable_ne_nil hcreates
      simp [Plan.statements, hne]
  | view =>
      obtain ⟨text, -, rfl⟩ := map_eq_ok.mp h
      exact List.cons_ne_nil _ _
  | function =>
      obtain ⟨text, -, rfl⟩ := map_eq_ok.mp h
      exact List.cons_ne_nil _ _
  | procedure =>
      obtain ⟨text, -, rfl⟩ := map_eq_ok.mp h
      exact List.cons_ne_nil _ _

/-- The creation script of one side of an item, empty where that side is not there. -/
def creation (s : Spelling) (c : Category) (side : Option c.Object) :
    Except ScriptFault String :=
  match side with
  | some object => (c.planCreate s object).map fun p => s.render p.statements
  | none => .ok ""

theorem creation_some {s : Spelling} {script : String}
    (h : creation s c (some object) = .ok script) :
    ∃ p, c.planCreate s object = .ok p ∧ script = s.render p.statements := by
  obtain ⟨p, hp, rfl⟩ := map_eq_ok.mp h
  exact ⟨p, hp, rfl⟩

end Category

/-! ## What an item says -/

namespace Item

variable {c : Category} {s : Spelling} {i : Item c}

/-- The item's own scripts can be written. -/
def Scriptable (s : Spelling) (i : Item c) : Prop :=
  ∃ scripts, i.scripts s = .ok scripts

/-- Nothing was written for the item so far. -/
structure Fresh (i : Item c) : Prop where
  sourceCreate : i.sourceCreate = ""
  targetCreate : i.targetCreate = ""
  alter : i.alter = ""
  fault : i.fault = none

/-- What scripting made of an item agrees with the consolidated scripts. -/
structure Agrees (s : Spelling) (r : Comparison) (i scripted : Item c) : Prop where
  /-- An item with a fault has no scripts, and nothing of its plans is in either
  consolidated script. -/
  left_out : scripted.fault.isSome →
    scripted.sourceCreate = "" ∧ scripted.targetCreate = "" ∧ scripted.alter = ""
    ∧ ∀ d p, i.plan s d = .ok p → ∀ text ∈ p.statements, ∀ d', text ∉ r.statements s d'
  /-- An item without one has the creation script of each side that is there. -/
  source_filled : scripted.fault = none → ∀ object, i.source = some object →
    ∃ p, c.planCreate s object = .ok p ∧ scripted.sourceCreate = s.render p.statements
      ∧ scripted.sourceCreate ≠ ""
  target_filled : scripted.fault = none → ∀ object, i.target = some object →
    ∃ p, c.planCreate s object = .ok p ∧ scripted.targetCreate = s.render p.statements
      ∧ scripted.targetCreate ≠ ""
  /-- And its alteration is part of the script that runs on the target. -/
  alter_included : scripted.fault = none →
    ∃ p, i.plan s .sourceToTarget = .ok p ∧ scripted.alter = s.render p.statements
      ∧ ∀ text ∈ p.statements, text ∈ r.statements s .sourceToTarget

theorem scripts_eq_ok {source target alter : String} :
    i.scripts s = .ok (source, target, alter)
      ↔ c.creation s i.source = .ok source ∧ c.creation s i.target = .ok target
        ∧ ∃ p, i.plan s .sourceToTarget = .ok p ∧ alter = s.render p.statements := by
  change (c.creation s i.source >>= fun x => c.creation s i.target >>= fun y =>
    (i.plan s .sourceToTarget).map (fun p => s.render p.statements) >>= fun z =>
      pure (x, y, z)) = _ ↔ _
  simp only [bind_eq_ok, map_eq_ok, pure, Except.pure, Except.ok.injEq, Prod.mk.injEq]
  constructor
  · rintro ⟨x, hx, y, hy, z, ⟨p, hp, rfl⟩, rfl, rfl, rfl⟩
    exact ⟨hx, hy, p, hp, rfl⟩
  · rintro ⟨hx, hy, p, hp, rfl⟩
    exact ⟨source, hx, target, hy, _, ⟨p, hp, rfl⟩, rfl, rfl, rfl⟩

theorem plan_of_scripts {source target alter : String}
    (h : i.scripts s = .ok (source, target, alter)) :
    i.planFault s .sourceToTarget = none := by
  obtain ⟨-, -, p, hp, -⟩ := scripts_eq_ok.mp h
  exact planFault_eq_none.mpr ⟨p, hp⟩

/-- With its own scripts written, only the way back can still put a fault on an item. -/
theorem scripted_of_scripts {source target alter : String}
    (h : i.scripts s = .ok (source, target, alter)) :
    i.scripted s
      = { i with sourceCreate := source, targetCreate := target, alter := alter }.noted
          (i.planFault s .targetToSource) := by
  unfold scripted annotated
  rw [plan_of_scripts h, h]
  rfl

/-- Without its own scripts an item has a fault and nothing else. -/
theorem scripted_of_not_scriptable (hfresh : i.Fresh) (h : ¬ i.Scriptable s) :
    (i.scripted s).fault.isSome ∧ (i.scripted s).sourceCreate = ""
      ∧ (i.scripted s).targetCreate = "" ∧ (i.scripted s).alter = "" := by
  have hannotated : ∃ message, i.annotated s = { i with fault := some message } := by
    unfold annotated
    cases hscripts : i.scripts s with
    | ok scripts => exact absurd ⟨scripts, hscripts⟩ h
    | error fault => exact ⟨_, rfl⟩
  obtain ⟨message, hmessage⟩ := hannotated
  unfold scripted
  refine ⟨?_, ?_, ?_, ?_⟩
  · rw [noted_fault_isSome, noted_fault_isSome, hmessage]
    exact Or.inl (Or.inl rfl)
  · simp [hmessage, hfresh.sourceCreate]
  · simp [hmessage, hfresh.targetCreate]
  · simp [hmessage, hfresh.alter]

/-- An item is scripted without a fault just if its own scripts can be written and so
can the way back. -/
theorem scripted_fault_eq_none (hfresh : i.Fresh) :
    (i.scripted s).fault = none
      ↔ i.Scriptable s ∧ ∃ p, i.plan s .targetToSource = .ok p := by
  rw [← Option.not_isSome_iff_eq_none]
  by_cases hscriptable : i.Scriptable s
  · obtain ⟨⟨source, target, alter⟩, hscripts⟩ := hscriptable
    rw [scripted_of_scripts hscripts, noted_fault_isSome, hfresh.fault,
      ← planFault_eq_none]
    have hsome : i.Scriptable s := ⟨_, hscripts⟩
    simp [hsome]
  · simp [(scripted_of_not_scriptable hfresh hscriptable).1, hscriptable]

end Item

namespace Comparison

variable {c : Category} {s : Spelling} {d : Direction} {r : Comparison} {i : Item c}
  {p : Plan} {text : String}

/-- What an item has a plan for is in the script. -/
theorem mem_statements_of_plan (hi : i ∈ r.items c) (hp : i.plan s d = .ok p)
    (htext : text ∈ p.statements) : text ∈ r.statements s d := by
  have hstate : i.state ≠ .unchanged := by
    intro hunchanged
    rw [Item.plan_of_unchanged hunchanged] at hp
    cases hp
    cases htext
  refine (statements_perm s d r).mem_iff.mpr (List.mem_append.mpr ?_)
  rw [Plan.statements_eq] at htext
  rcases List.mem_append.mp htext with htext | htext
  · exact Or.inl (mem_foreignKeyDrops_iff.mpr (Or.inl ⟨c, i, hi, hstate, p, hp, htext⟩))
  · refine Or.inr (List.mem_flatMap.mpr ⟨c, by cases c <;> decide, ?_⟩)
    exact mem_gather.mpr ⟨i, hi, hstate, p, hp, htext⟩

end Comparison

/-! ## Which items agree -/

namespace Item

variable {c : Category} {e : Dialect} {o : Options} {r : Comparison} {i : Item c}

/-- An item that can be scripted has a side that is there, unless it has a plan for
either direction anyway. -/
theorem sides_of_no_way_back {s : Spelling} (hscriptable : i.Scriptable s)
    (hback : ¬ ∃ p, i.plan s .targetToSource = .ok p) :
    i.source.isSome ∨ i.target.isSome := by
  obtain ⟨⟨source, target, alter⟩, hscripts⟩ := hscriptable
  obtain ⟨-, -, p, hp, -⟩ := scripts_eq_ok.mp hscripts
  rcases i.plan_cases hp with ⟨x, -, hx, -⟩ | ⟨x, -, hx, -⟩ | ⟨x, y, -, hx, -, -⟩
    | ⟨hunchanged, -⟩
  · exact Or.inl (Option.isSome_of_eq_some hx)
  · exact Or.inr (Option.isSome_of_eq_some hx)
  · exact Or.inl (Option.isSome_of_eq_some hx)
  · exact absurd ⟨_, plan_of_unchanged (stateFor_eq_unchanged.mp hunchanged)⟩ hback

/-- With no way back an item keeps the scripts that were written for it. -/
theorem scripts_of_no_way_back (hscriptable : i.Scriptable (Spelling.of e o))
    (hback : ¬ ∃ p, i.plan (Spelling.of e o) .targetToSource = .ok p) :
    (i.scripted (Spelling.of e o)).sourceCreate ≠ ""
      ∨ (i.scripted (Spelling.of e o)).targetCreate ≠ "" := by
  have hsides := sides_of_no_way_back hscriptable hback
  obtain ⟨⟨source, target, alter⟩, hscripts⟩ := hscriptable
  obtain ⟨hsource, htarget, -⟩ := scripts_eq_ok.mp hscripts
  rw [scripted_of_scripts hscripts, noted_sourceCreate, noted_targetCreate]
  rcases hsides with hside | hside
  · obtain ⟨object, hobject⟩ := Option.isSome_iff_exists.mp hside
    rw [hobject] at hsource
    obtain ⟨p, hp, rfl⟩ := Category.creation_some hsource
    exact Or.inl (Spelling.render_ne_empty (Category.planCreate_ne_nil hp))
  · obtain ⟨object, hobject⟩ := Option.isSome_iff_exists.mp hside
    rw [hobject] at htarget
    obtain ⟨p, hp, rfl⟩ := Category.creation_some htarget
    exact Or.inr (Spelling.render_ne_empty (Category.planCreate_ne_nil hp))

theorem agrees_of_scriptable (hi : i ∈ r.items c) (hfresh : i.Fresh)
    (hscriptable : i.Scriptable (Spelling.of e o))
    (hback : ∃ p, i.plan (Spelling.of e o) .targetToSource = .ok p) :
    i.Agrees (Spelling.of e o) r (i.scripted (Spelling.of e o)) := by
  have hnone := (scripted_fault_eq_none hfresh).mpr ⟨hscriptable, hback⟩
  obtain ⟨⟨source, target, alter⟩, hscripts⟩ := hscriptable
  obtain ⟨hsource, htarget, p, hp, rfl⟩ := scripts_eq_ok.mp hscripts
  have hscripted := scripted_of_scripts hscripts
  refine ⟨?left_out, ?source_filled, ?target_filled, ?alter_included⟩
  case left_out =>
      intro hfault
      rw [hnone] at hfault
      cases hfault
  case source_filled =>
      intro _ object hobject
      rw [hobject] at hsource
      obtain ⟨q, hq, rfl⟩ := Category.creation_some hsource
      rw [hscripted, noted_sourceCreate]
      exact ⟨q, hq, rfl, Spelling.render_ne_empty (Category.planCreate_ne_nil hq)⟩
  case target_filled =>
      intro _ object hobject
      rw [hobject] at htarget
      obtain ⟨q, hq, rfl⟩ := Category.creation_some htarget
      rw [hscripted, noted_targetCreate]
      exact ⟨q, hq, rfl, Spelling.render_ne_empty (Category.planCreate_ne_nil hq)⟩
  case alter_included =>
      intro _
      rw [hscripted, noted_alter]
      exact ⟨p, hp, rfl, fun text htext => Comparison.mem_statements_of_plan hi hp htext⟩

theorem agrees_of_not_scriptable {s : Spelling} (hfresh : i.Fresh)
    (hscriptable : ¬ i.Scriptable s)
    (hempty : ∀ d p, i.plan s d = .ok p → p.statements = []) :
    i.Agrees s r (i.scripted s) := by
  obtain ⟨hfault, hsource, htarget, halter⟩ :=
    scripted_of_not_scriptable hfresh hscriptable
  have hsome : (i.scripted s).fault ≠ none := by
    intro hnone
    rw [hnone] at hfault
    cases hfault
  refine ⟨fun _ => ⟨hsource, htarget, halter, ?_⟩, fun h => absurd h hsome,
    fun h => absurd h hsome, fun h => absurd h hsome⟩
  intro d p hp text htext
  rw [hempty d p hp] at htext
  cases htext

/-- An item agrees with the consolidated scripts if all of it can be written, or if its
own scripts cannot and neither can anything of its plans; no other item does. -/
theorem agrees_iff (hi : i ∈ r.items c) (hfresh : i.Fresh) :
    i.Agrees (Spelling.of e o) r (i.scripted (Spelling.of e o))
      ↔ (i.Scriptable (Spelling.of e o)
          ∧ ∃ p, i.plan (Spelling.of e o) .targetToSource = .ok p)
        ∨ (¬ i.Scriptable (Spelling.of e o)
          ∧ ∀ d p, i.plan (Spelling.of e o) d = .ok p → p.statements = []) := by
  constructor
  · intro hagrees
    by_cases hscriptable : i.Scriptable (Spelling.of e o)
    · by_cases hback : ∃ p, i.plan (Spelling.of e o) .targetToSource = .ok p
      · exact Or.inl ⟨hscriptable, hback⟩
      · -- A fault from the way back alone stands beside scripts that were written.
        have hfault : (i.scripted (Spelling.of e o)).fault.isSome := by
          rw [Option.isSome_iff_ne_none]
          exact fun hnone => hback ((scripted_fault_eq_none hfresh).mp hnone).2
        obtain ⟨hsource, htarget, -⟩ := hagrees.left_out hfault
        rcases scripts_of_no_way_back hscriptable hback with h | h
        · exact absurd hsource h
        · exact absurd htarget h
    · refine Or.inr ⟨hscriptable, fun d p hp => ?_⟩
      obtain ⟨-, -, -, hout⟩ :=
        hagrees.left_out (scripted_of_not_scriptable hfresh hscriptable).1
      refine List.eq_nil_iff_forall_not_mem.mpr fun text htext => ?_
      exact hout d p hp text htext d (Comparison.mem_statements_of_plan hi hp htext)
  · rintro (⟨hscriptable, hback⟩ | ⟨hscriptable, hempty⟩)
    · exact agrees_of_scriptable hi hfresh hscriptable hback
    · exact agrees_of_not_scriptable hfresh hscriptable hempty

end Item

namespace Comparison

/-- A comparison of two models comes without scripts. -/
theorem between_fresh {o : Options} {source target : Model} {c : Category} {i : Item c}
    (hi : i ∈ (between o source target).items c) : i.Fresh := by
  cases c <;>
  · obtain ⟨k, -, rfl⟩ := List.mem_map.mp hi
    exact ⟨rfl, rfl, rfl, rfl⟩

/-- After a run that succeeds on the comparison of two models, an item agrees with the
consolidated scripts just if all of it can be written or nothing of it can. -/
theorem scripting_agrees_iff (e : Dialect) (o o' : Options) (source target : Model) :
    let s := Spelling.of e o'
    let r := between o source target
    (∀ task polls tr r' tr',
      (scriptComparison s r task polls).run tr = ((r', .ok ()), tr') → r' = r.scripted s)
    ∧ (∀ d, (r.scripted s).script d = some (s.render (r.statements s d)))
    ∧ ∀ (c : Category) (n : Nat) (i : Item c), (r.items c)[n]? = some i →
        ∃ i', ((r.scripted s).items c)[n]? = some i' ∧ i'.key = i.key
          ∧ (i'.fault = none ↔ i.Scriptable s ∧ ∃ p, i.plan s .targetToSource = .ok p)
          ∧ (i.Agrees s r i' ↔
              (i.Scriptable s ∧ ∃ p, i.plan s .targetToSource = .ok p)
              ∨ (¬ i.Scriptable s ∧ ∀ d p, i.plan s d = .ok p → p.statements = [])) := by
  refine ⟨fun task polls tr r' tr' hrun => scriptComparison_ok hrun,
    fun d => script_scripted _ d _, ?_⟩
  intro c n i hn
  have hi := List.mem_of_getElem? hn
  have hfresh := between_fresh hi
  refine ⟨i.scripted (Spelling.of e o'), ?_, by simp [Item.scripted],
    Item.scripted_fault_eq_none hfresh, Item.agrees_iff hi hfresh⟩
  rw [items_scripted, List.getElem?_map, hn]
  rfl

/-- A view whose definition was not readable. -/
def unreadableView : View :=
  { schema := "public", name := "v", definition := " " }

/-- The comparison of an empty source with a target that has the unreadable view. -/
def withUnreadableView : Comparison :=
  between {} { dialect := .postgreSql, database := "shop" }
    { dialect := .postgreSql, database := "shop"
      views := [(unreadableView.key, unreadableView)] }

/-- The unreadable view has a fault, and is dropped all the same. -/
theorem unreadable_view_disagrees :
    ¬ ∀ (c : Category) (n : Nat) (i i' : Item c),
      (withUnreadableView.items c)[n]? = some i →
      ((withUnreadableView.scripted (Spelling.of .postgreSql {})).items c)[n]? = some i' →
      i.Agrees (Spelling.of .postgreSql {}) withUnreadableView i' := by
  intro hall
  let i : Item .view := .ofSides {} unreadableView.key none (some unreadableView)
  have hitem : (withUnreadableView.items .view)[0]? = some i := rfl
  have hscripted : ((withUnreadableView.scripted
      (Spelling.of .postgreSql {})).items .view)[0]?
        = some (i.scripted (Spelling.of .postgreSql {})) := by
    rw [items_scripted, List.getElem?_map, hitem]
    rfl
  have hplan : i.plan (Spelling.of .postgreSql {}) .sourceToTarget
      = .ok (.dropping ((Spelling.of .postgreSql {}).dropView unreadableView)) := rfl
  have hfault : ¬ i.Scriptable (Spelling.of .postgreSql {}) := by
    have herror : i.scripts (Spelling.of .postgreSql {})
        = .error (.noDefinition "view public.v") := rfl
    rintro ⟨scripts, hok⟩
    rw [herror] at hok
    cases hok
  have hi := List.mem_of_getElem? hitem
  obtain ⟨-, -, -, hout⟩ := (hall .view 0 i _ hitem hscripted).left_out
    (Item.scripted_of_not_scriptable (between_fresh hi) hfault).1
  have htext := List.mem_singleton_self
    ((Spelling.of .postgreSql {}).dropView unreadableView)
  exact hout .sourceToTarget _ hplan _ htext .sourceToTarget
    (mem_statements_of_plan hi hplan htext)

end Comparison

end Reconcile
