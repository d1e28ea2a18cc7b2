import DocGraph.Proofs.Finish.StoredOrders
import DocGraph.Proofs.Walk.Reports

/-!
Which classes are reported for want of a method resolution order. Finishing a graph reports a class that
has no order, unless something is stored for the class already; and something is, from the first finished
graph on that the class is in. So the first of them decides: a class that has no order there is reported,
once and for all, and any other never is, even if it loses its order later.
-/
namespace DocGraph

namespace Graph

variable {g h k : Graph} {id : EntityId}

/-- What is to be said of a class that has no method resolution order. -/
def orderReport? (g : Graph) (id : EntityId) : Option Diagnostic :=
  match g.computeMro id with
  | .ok _ => none
  | .error _ =>
      some
        { module := g.fullName ((g.entity id).home.getD id), entity := g.fullName id, topic := "mro"
          line := lineAt (g.entity id).line 0, message := "cannot compute MRO", threshold := -1 }

theorem orderReports_reportMro (g : Graph) (id : EntityId) :
    (g.reportMro id).orderReports =
      g.orderReports ++ if (g.mroOf? id).isSome then [] else (g.orderReport? id).toList := by
  cases computed : g.computeMro id with
  | ok order => simp [reportMro, orderReport?, computed]
  | error reason =>
      simp only [reportMro, orderReport?, computed]
      split
      · simp
      · simp [orderReports, Diagnostics.inSection, report]

/-- The graphs agree in all that such a report depends on. -/
structure Consonant (g h : Graph) : Prop where
  size : h.size = g.size
  name : ∀ id, (h.entity id).name = (g.entity id).name
  parent : ∀ id, (h.entity id).parent = (g.entity id).parent
  home : ∀ id, (h.entity id).home = (g.entity id).home
  line : ∀ id, (h.entity id).line = (g.entity id).line
  bases : ∀ id, h.basesOf id = g.basesOf id

namespace Consonant

theorem refl (g : Graph) : Consonant g g :=
  ⟨rfl, fun _ => rfl, fun _ => rfl, fun _ => rfl, fun _ => rfl, fun _ => rfl⟩

theorem trans (first : Consonant g h) (second : Consonant h k) : Consonant g k :=
  ⟨second.size.trans first.size, fun id => (second.name id).trans (first.name id),
    fun id => (second.parent id).trans (first.parent id), fun id => (second.home id).trans (first.home id),
    fun id => (second.line id).trans (first.line id), fun id => (second.bases id).trans (first.bases id)⟩

theorem of_entity (size : h.size = g.size) (same : h.entity = g.entity) : Consonant g h := by
  refine ⟨size, ?_, ?_, ?_, ?_, ?_⟩ <;> simp [basesOf, same]

theorem modify (g : Graph) (id : EntityId) {f : Entity → Entity} (name : ∀ e, (f e).name = e.name)
    (parent : ∀ e, (f e).parent = e.parent) (home : ∀ e, (f e).home = e.home) (line : ∀ e, (f e).line = e.line)
    (bases : ∀ e, (f e).bases = e.bases) : Consonant g (g.modify id f) :=
  ⟨g.size_modify id f, read_modify g id f Entity.name name, read_modify g id f Entity.parent parent,
    read_modify g id f Entity.home home, read_modify g id f Entity.line line, read_modify g id f Entity.bases bases⟩

theorem orderReport? (consonant : Consonant g h) (id : EntityId) : h.orderReport? id = g.orderReport? id := by
  have alike : SameBases (fun _ => True) g h := ⟨fun _ => consonant.bases _, fun _ _ => trivial⟩
  have computed : (h.computeMro id).toOption = (g.computeMro id).toOption := alike.toOption_computeMro trivial
  have name := fullName_congr consonant.size consonant.name consonant.parent
  unfold Graph.orderReport?
  rw [consonant.home, consonant.line, name, name]
  cases first : g.computeMro id <;> cases second : h.computeMro id <;> simp_all [Except.toOption]

end Consonant

theorem consonant_refreshMro (all : Bool) (g : Graph) (id : EntityId) : Consonant g (refreshMro all g id).1 := by
  have reported : Consonant g (g.reportMro id) := .of_entity (size_reportMro g id) (entity_reportMro g id)
  unfold refreshMro
  split
  · rcases updateMro_cases g id with ⟨_, equal⟩ | equal
    · rw [equal]
      exact reported
    · rw [equal]
      refine reported.trans (.modify _ id ?_ ?_ ?_ ?_ ?_) <;> intro e <;>
        cases payload : e.payload <;> simp [Entity.modifyClass, Entity.bases, payload]
  · exact .refl g

theorem orderReports_refreshMro (all : Bool) (g : Graph) (id : EntityId) :
    (refreshMro all g id).1.orderReports =
      g.orderReports ++ if (g.mroOf? id).isSome then [] else (g.orderReport? id).toList := by
  rw [← orderReports_reportMro]
  unfold refreshMro
  split
  · rcases updateMro_cases g id with ⟨_, equal⟩ | equal
    · rw [equal]
    · rw [equal, orderReports_modify]
  · rename_i kept
    have stored : (g.mroOf? id).isSome := by simp_all [Option.isSome_iff_ne_none]
    rw [orderReports_reportMro, if_pos stored, List.append_nil]

theorem mroOf?_refreshMro_of_ne (all : Bool) (g : Graph) {other : EntityId} (apart : id ≠ other) :
    (refreshMro all g id).1.mroOf? other = g.mroOf? other := by
  unfold refreshMro
  split
  · rcases updateMro_cases g id with ⟨_, equal⟩ | equal
    · rw [equal, mroOf?_reportMro]
    · rw [equal, mroOf?_modify_modifyClass, mroOf?_reportMro, if_neg fun same => apart same.1]
  · rfl

/-- No class waits for another: what is stored for one has no bearing on the report of the next. -/
theorem orderReports_tally_refreshMro (all : Bool) {classes : List EntityId} (nodup : classes.Nodup) (g : Graph) :
    (tally (refreshMro all) classes g).1.orderReports =
      g.orderReports ++ (classes.filter fun id => (g.mroOf? id).isNone).filterMap g.orderReport? := by
  induction classes generalizing g with
  | nil => simp
  | cons id rest ih =>
      obtain ⟨fresh, nodup⟩ := List.nodup_cons.mp nodup
      have stored : ∀ other ∈ rest, (((refreshMro all g id).1.mroOf? other).isNone) = (g.mroOf? other).isNone := by
        intro other among
        have apart : id ≠ other := fun same => fresh (same ▸ among)
        rw [mroOf?_refreshMro_of_ne all g apart]
      have said : (refreshMro all g id).1.orderReport? = g.orderReport? :=
        funext (consonant_refreshMro all g id).orderReport?
      rw [tally_cons, ih nodup, said, List.filter_congr stored, orderReports_refreshMro, List.append_assoc]
      cases found : g.mroOf? id with
      | some order => simp [found]
      | none => cases report : g.orderReport? id <;> simp [found, report]

theorem orderReports_tally {α : Type} {step : Graph → α → Graph × Nat}
    (each : ∀ g item, (step g item).1.orderReports = g.orderReports) (items : List α) (g : Graph) :
    (tally step items g).1.orderReports = g.orderReports :=
  tally_related (r := fun g h => h.orderReports = g.orderReports) (fun _ => rfl)
    (fun first second => second.trans first) each items g

theorem orderReports_resumeImport (module : EntityId) (exports : List String) (g : Graph) (pending : PendingImport) :
    (resumeImport module exports g pending).1.orderReports = g.orderReports := by
  unfold resumeImport
  split
  · rename_i origin name asName line
    split
    · rfl
    · rename_i originId _
      have kept := ((reportsOnly_reexport g module exports originId name asName line).mono fun _ =>
        Diagnostic.OfBinding.ofBuild).orderReports
      split
      all_goals
        rename_i equal
        rw [equal] at kept
      · unfold dropAlias
        split <;> exact kept
      · exact kept
  · split
    · rfl
    · exact ((reportsOnly_importStar _ _ _ _ _ _).mono fun _ => Diagnostic.OfBinding.ofBuild).orderReports

theorem orderReports_resumeImports (g : Graph) (id : EntityId) :
    (g.resumeImports id).1.orderReports = g.orderReports :=
  orderReports_tally (orderReports_resumeImport id _) _ _

theorem mroOf?_upgradeBases (g : Graph) (id other : EntityId) :
    (g.upgradeBases id).1.mroOf? other = g.mroOf? other := by
  rcases upgradeBases_cases g id with equal | ⟨_, _, equal⟩
  · rw [equal]
  · rw [equal]
    exact mroOf?_modify_of_kept (by intro; rfl) other

theorem orderReports_tagException (g : Graph) (id : EntityId) :
    (g.tagException id).1.orderReports = g.orderReports := by
  unfold tagException
  split <;> rfl

theorem consonant_tagException (g : Graph) (id : EntityId) : Consonant g (g.tagException id).1 := by
  unfold tagException
  split
  · exact .modify g id (fun _ => rfl) (fun _ => rfl) (fun _ => rfl) (fun _ => rfl) fun _ => rfl
  · exact .refl g

namespace Stages

variable {resumed upgraded linked ordered : Graph} {s : Summary}
  (stages : Stages g resumed upgraded linked ordered h s)

include stages

theorem mroOf?_linked (id : EntityId) : linked.mroOf? id = g.mroOf? id := by
  have upgrading := tally_related (r := fun g h => ∀ id, h.mroOf? id = g.mroOf? id) (fun _ _ => rfl)
    (fun first second id => (second id).trans (first id)) mroOf?_upgradeBases (resumed.idsOfType .class) resumed
  have linking := tally_related .refl .trans orderly_linkSubclasses (resumed.idsOfType .class) upgraded
  rw [stages.upgrade] at upgrading
  rw [stages.link] at linking
  rw [linking.mro, upgrading, mroOf?, stages.resuming.class?, mroOf?]

theorem orderReports_linked : linked.orderReports = g.orderReports := by
  have resuming := orderReports_tally orderReports_resumeImports (g.idsOfType .module) g
  rw [stages.resume] at resuming
  have linking : linked.orderReports = resumed.orderReports :=
    stages.related_link (r := fun g h => h.orderReports = g.orderReports) (fun _ => rfl)
      (fun first second => second.trans first) fun _ _ _ => rfl
  exact linking.trans resuming

theorem consonant : Consonant linked h := by
  have ordering := tally_related .refl .trans (consonant_refreshMro (s.resolvedBases != 0))
    (resumed.idsOfType .class) linked
  have tagging := tally_related .refl .trans consonant_tagException (resumed.idsOfType .class) ordered
  rw [stages.order] at ordering
  rw [stages.tag] at tagging
  exact ordering.trans tagging

theorem orderReports :
    h.orderReports =
      g.orderReports ++ ((h.idsOfType .class).filter fun id => (g.mroOf? id).isNone).filterMap h.orderReport? := by
  have tagging := orderReports_tally orderReports_tagException (resumed.idsOfType .class) ordered
  have nodup : (resumed.idsOfType .class).Nodup := resumed.nodup_ids.filter _
  have ordering := orderReports_tally_refreshMro (s.resolvedBases != 0) nodup linked
  rw [stages.tag] at tagging
  rw [stages.order] at ordering
  rw [tagging, ordering, stages.orderReports_linked, stages.steady_behind.idsOfType,
    funext stages.consonant.orderReport?]
  simp only [stages.mroOf?_linked]

end Stages

end Graph

open DocGraph.Graph

namespace Call

/-- The hooks of a call report nothing about method resolution orders. -/
def Quiet : Call → Prop
  | .build hooks _ _ => ∀ hook ∈ hooks, hook.Quiet
  | _ => True

/-- The graph behind a call that finishes one. -/
def finished (g : Graph) : Call → List Graph
  | .finish => (g.finish.map Prod.fst).toOption.toList
  | _ => []

theorem Outcome.orderReports {g h : Graph} {call : Call} (outcome : Outcome g call h) (other : call ≠ .finish)
    (quiet : call.Quiet) : h.orderReports = g.orderReports := by
  have bound (reports : ReportsOnly Diagnostic.OfBinding g h) : h.orderReports = g.orderReports :=
    (reports.mono fun _ => Diagnostic.OfBinding.ofBuild).orderReports
  cases outcome with
  | refused => rfl
  | addModule added => exact bound (reportsOnly_addModule added)
  | addClass | addFunction | addAttribute => exact bound (reportsOnly_declare _ _ _ _)
  | reexport => exact bound (reportsOnly_reexport _ _ _ _ _ _ _)
  | build built => exact orderReports_build quiet built
  | move moved => exact bound (reportsOnly_move moved)
  | finish => exact absurd rfl other

end Call

namespace Graph

variable {g h : Graph} {id : EntityId} {finished : List Graph} {reports : List (EntityId × Diagnostic)}

/-- The finished graphs that a run comes to. -/
def finishedGraphs (g : Graph) : List Call → List Graph
  | [] => []
  | call :: rest => call.finished g ++ (call.apply g).finishedGraphs rest

/-- What is to be said of a class in the first finished graph that it is in. -/
def firstReport? (finished : List Graph) (id : EntityId) : Option Diagnostic :=
  (finished.find? fun h => (h.entity id).type == .class).bind (·.orderReport? id)

def reportsAbout (reports : List (EntityId × Diagnostic)) (id : EntityId) : List Diagnostic :=
  (reports.filter fun report => report.1 == id).map Prod.snd

theorem reportsAbout_append (reports later : List (EntityId × Diagnostic)) (id : EntityId) :
    reportsAbout (reports ++ later) id = reportsAbout reports id ++ reportsAbout later id := by
  simp [reportsAbout]

theorem reportsAbout_cons (report : EntityId × Diagnostic) (rest : List (EntityId × Diagnostic)) (id : EntityId) :
    reportsAbout (report :: rest) id =
      if report.1 = id then report.2 :: reportsAbout rest id else reportsAbout rest id := by
  by_cases same : report.1 = id <;> simp [reportsAbout, same]

theorem reportsAbout_filterMap {classes : List EntityId} (nodup : classes.Nodup) (said : EntityId → Option Diagnostic)
    (id : EntityId) :
    reportsAbout (classes.filterMap fun other => (said other).map (other, ·)) id =
      if id ∈ classes then (said id).toList else [] := by
  induction classes with
  | nil => rfl
  | cons other rest ih =>
      obtain ⟨fresh, nodup⟩ := List.nodup_cons.mp nodup
      by_cases same : other = id
      · subst same
        cases report : said other <;> simp [report, reportsAbout_cons, ih nodup, fresh]
      · cases report : said other <;> simp [report, reportsAbout_cons, ih nodup, same, Ne.symm same]

/-- The reports of a run: the finished graphs that it has come to tell them, and which classes have
something stored. -/
structure Logged (g : Graph) (finished : List Graph) (reports : List (EntityId × Diagnostic)) : Prop where
  listed : g.orderReports = reports.map Prod.snd
  first : ∀ id, reportsAbout reports id = (firstReport? finished id).toList
  stored : ∀ id, (g.mroOf? id).isSome ↔ ∃ h ∈ finished, (h.entity id).type = .class

namespace Logged

theorem empty (options : Options) : Logged (empty options) [] [] := by
  refine ⟨rfl, fun _ => rfl, fun id => ?_⟩
  rw [mroOf?_of_not_has (by simp [Has, size, Graph.empty])]
  simp

theorem orderly (logged : Logged g finished reports) (orderly : Orderly g h)
    (quiet : h.orderReports = g.orderReports) : Logged h finished reports :=
  ⟨quiet.trans logged.listed, logged.first, fun id => by rw [orderly.mro]; exact logged.stored id⟩

theorem find?_eq_none (logged : Logged g finished reports) (unstored : g.mroOf? id = none) :
    finished.find? (fun h => (h.entity id).type == .class) = none := by
  rw [List.find?_eq_none]
  intro h among isClass
  have stored := (logged.stored id).mpr ⟨h, among, by simpa using isClass⟩
  rw [unstored] at stored
  cases stored

theorem finish (logged : Logged g finished reports) {s : Summary} (finishes : g.finish = .ok (h, s)) :
    ∃ more, Logged h (finished ++ [h]) (reports ++ more) := by
  obtain ⟨resumed, upgraded, linked, ordered, stages⟩ := finish_stages finishes
  have nodup : ((h.idsOfType .class).filter fun id => (g.mroOf? id).isNone).Nodup :=
    (h.nodup_ids.filter _).filter _
  refine ⟨((h.idsOfType .class).filter fun id => (g.mroOf? id).isNone).filterMap fun id =>
    (h.orderReport? id).map (id, ·), ?_, fun id => ?_, fun id => ?_⟩
  · rw [stages.orderReports, logged.listed, List.map_append, List.map_filterMap]
    simp [Function.comp_def]
  · rw [reportsAbout_append, logged.first, reportsAbout_filterMap nodup, firstReport?, firstReport?,
      List.find?_append]
    cases stored : g.mroOf? id with
    | none =>
        rw [logged.find?_eq_none stored]
        by_cases isClass : (h.entity id).type = .class
        · have inside : h.Has id := h.has_of_type (by rw [isClass]; decide)
          simp [List.mem_filter, mem_idsOfType, inside, isClass, stored]
        · simp [List.mem_filter, mem_idsOfType, isClass]
    | some order =>
        obtain ⟨k, among, isClass⟩ := (logged.stored id).mp (by rw [stored]; rfl)
        have some : (finished.find? fun h => (h.entity id).type == .class).isSome :=
          List.find?_isSome.mpr ⟨k, among, beq_iff_eq.mpr isClass⟩
        obtain ⟨first, found⟩ := Option.isSome_iff_exists.mp some
        simp [found, List.mem_filter, stored]
  · constructor
    · intro stored
      obtain ⟨order, stored⟩ := Option.isSome_iff_exists.mp stored
      exact ⟨h, by simp, type_of_mroOf? stored⟩
    · rintro ⟨k, among, isClass⟩
      rcases List.mem_append.mp among with before | last
      · obtain ⟨order, stored⟩ := Option.isSome_iff_exists.mp ((logged.stored id).mpr ⟨k, before, isClass⟩)
        exact stages.stored (((stages.steady.entity id).type).trans (type_of_mroOf? stored))
      · rw [List.mem_singleton.mp last] at isClass
        exact stages.stored isClass

theorem apply (logged : Logged g finished reports) {call : Call} (tells : call.Tells) (quiet : call.Quiet) :
    ∃ more, Logged (call.apply g) (finished ++ call.finished g) (reports ++ more) := by
  by_cases last : call = .finish
  · subst last
    cases finishes : g.finish with
    | error refusal =>
        exact ⟨[], by simpa [Call.apply, Call.finished, finishes, Except.map, Except.toOption] using logged⟩
    | ok answer =>
        obtain ⟨h, s⟩ := answer
        simpa [Call.apply, Call.finished, finishes, Except.map, Except.toOption] using logged.finish finishes
  · have outcome := call.outcome_apply g
    have none : call.finished g = [] := by
      cases call with
      | finish => exact absurd rfl last
      | _ => rfl
    have kept := logged.orderly (outcome.orderly last tells) (outcome.orderReports last quiet)
    exact ⟨[], by simpa [none] using kept⟩

theorem run (logged : Logged g finished reports) {calls : List Call} (tells : ∀ call ∈ calls, call.Tells)
    (quiet : ∀ call ∈ calls, call.Quiet) :
    ∃ more, Logged (g.run calls) (finished ++ g.finishedGraphs calls) (reports ++ more) := by
  induction calls generalizing g finished reports with
  | nil => exact ⟨[], by simpa [finishedGraphs, Graph.run] using logged⟩
  | cons call rest ih =>
      rw [List.forall_mem_cons] at tells quiet
      obtain ⟨first, applied⟩ := logged.apply tells.1 quiet.1
      obtain ⟨later, ran⟩ := ih applied tells.2 quiet.2
      refine ⟨first ++ later, ?_⟩
      simpa [finishedGraphs, Graph.run] using ran

end Logged

/-- The reports about method resolution orders, over a whole run: a class is reported once if it has no
order in the first finished graph that it is in, by the names it has there, and otherwise never. -/
theorem run_orderReports (options : Options) (calls : List Call) (tells : ∀ call ∈ calls, call.Tells)
    (quiet : ∀ call ∈ calls, call.Quiet) :
    ∃ reports : List (EntityId × Diagnostic),
      (run (empty options) calls).diagnostics.inSection "mro" = reports.map Prod.snd ∧
      ∀ id, reportsAbout reports id = (firstReport? (finishedGraphs (empty options) calls) id).toList := by
  obtain ⟨reports, logged⟩ := (Logged.empty options).run tells quiet
  exact ⟨reports, logged.listed, logged.first⟩

/-- The second base of the last class is found when the graph is finished once more. It derives from the
first base, so that the class has no order any longer. -/
def lostOrder : List Call :=
  [.addModule "m" false,
    .build Hook.standard ⟨0⟩ (.ok
      { body :=
          [.classDef { name := "A", line := 1 } [],
            .importFrom (some "n") [⟨"B", none⟩] 0 2,
            .classDef { name := "C", bases := [.name "A", .name "B"], line := 3 } []] }),
    .finish,
    .addModule "n" false,
    .build Hook.standard ⟨3⟩ (.ok
      { body :=
          [.importFrom (some "m") [⟨"A", none⟩] 0 1,
            .classDef { name := "B", bases := [.name "A"], line := 2 } []] }),
    .finish]

/-- Another module has a class that has no order from the start. -/
def laterUnordered : List Call :=
  lostOrder ++
    [.addModule "o" false,
      .build Hook.standard ⟨5⟩ (.ok
        { body :=
            [.classDef { name := "P", line := 1 } [],
              .classDef { name := "Q", bases := [.name "P"], line := 2 } [],
              .classDef { name := "R", bases := [.name "P", .name "Q"], line := 3 } []] }),
      .finish, .finish]

theorem run_laterUnordered_reports :
    (∀ call ∈ laterUnordered, call.Tells) ∧ (∀ call ∈ laterUnordered, call.Quiet) ∧
      ∃ reports : List (EntityId × Diagnostic),
        (run (empty {}) laterUnordered).diagnostics.inSection "mro" = reports.map Prod.snd ∧
        reportsAbout reports ⟨8⟩ =
          [{ module := "o", entity := "o.R", topic := "mro", line := 3, message := "cannot compute MRO" }] ∧
        reportsAbout reports ⟨2⟩ = [] ∧ ((run (empty {}) laterUnordered).computeMro ⟨2⟩).toOption = none := by
  have tells : ∀ call ∈ laterUnordered, call.Tells := by
    simpa [laterUnordered, lostOrder, Call.Tells] using Hook.tells_standard
  have quiet : ∀ call ∈ laterUnordered, call.Quiet := by
    simpa [laterUnordered, lostOrder, Call.Quiet] using Hook.quiet_standard
  obtain ⟨reports, listed, first⟩ := run_orderReports {} laterUnordered tells quiet
  refine ⟨tells, quiet, reports, listed, ?_, ?_, by decide +kernel⟩
  · rw [first]
    decide +kernel
  · rw [first]
    decide +kernel

/-- The class had an order in the first of the two finished graphs and has none in the second; neither
has reported it. -/
theorem run_lostOrder_unreported :
    (finishedGraphs (empty {}) lostOrder).map (fun h => (h.computeMro ⟨2⟩).toOption) =
        [some [⟨2⟩, ⟨1⟩], none] ∧
      (run (empty {}) lostOrder).diagnostics.inSection "mro" = [] := by
  decide +kernel

end Graph

end DocGraph
