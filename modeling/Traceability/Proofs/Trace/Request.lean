import Traceability.Project.Trace
import Traceability.Proofs.Live.Files
import Traceability.Proofs.Trace.Options

/-!
# Accounts of a request

A request asks for identifiers in one of four ways. Each of them that is defined has one chain in the
answer, and each that is not has one warning, in the order in which they are asked for first. All
identifiers that are traced have been looked up before, so the trace itself never misses one.
-/
namespace Traceability

/-- What a request asks for: everything, the identifiers of a task file or of a source file with its
text, or given ones. -/
inductive Asked where
  | all
  | task (path : Path) (text : Text)
  | file (path : Path) (text : Text)
  | given (ids : List Text)

/-- What a request asks for first counts: everything, a task file, a source file, and given
identifiers. A file must be readable, and given identifiers must be some. -/
inductive Asks (d : Disk) (r : TraceRequest) : Asked → Prop
  | all (every : r.all = true) : Asks d r .all
  | task {path : Path} {text : Text} (part : r.all = false) (named : r.task = some path)
      (read : d.text? path = some text) : Asks d r (.task path text)
  | file {path : Path} {text : Text} (part : r.all = false) (untasked : r.task = none)
      (named : r.file = some path) (read : d.text? path = some text) : Asks d r (.file path text)
  | given (part : r.all = false) (untasked : r.task = none) (unfiled : r.file = none)
      (filled : r.ids ≠ []) : Asks d r (.given r.ids)

namespace Asked

def candidates (tokens : List Text) (i : TraceIndex) : Asked → List Text
  | .all => sortBy Text.le i.ids
  | .task _ text => QuerySet.taskIds text
  | .file _ text => Marker.idsIn tokens text
  | .given ids => ids

/-- The warning about a candidate that is not defined. -/
def warning : Asked → Text → Text
  | .task _ _, id => "ID '" ++ id ++ "' from task file not found in specs"
  | .file _ _, id => "Marker ID '" ++ id ++ "' not found in specs"
  | _, id => "ID '" ++ id ++ "' not found in any spec or code"

/-- The message where there are no candidates. -/
def nothing (r : TraceRequest) : Asked → Text
  | .task path _ => "No traceability IDs found in task file: " ++ path.toText
  | .file path _ => "No traceability markers found in file: " ++ path.toText
  | _ => r.emptyMessage

end Asked

/-- The account that an outcome, and the trace behind it, give of what is asked for. -/
structure Accounts (p : Project) (i : TraceIndex) (r : TraceRequest) (a : Asked)
    (result : TraceResult) (outcome : TraceOutcome) : Prop where
  /-- One chain for each candidate that is defined, where it is asked for first. -/
  traced : FirstSeen ((a.candidates p.config.markers i).filter (· ∈ i.ids))
    (result.chains.map (·.query))
  chains : ∀ c ∈ result.chains, c = TraceChain.resolve i r.options c.query
  complete : result.notFound = []
  /-- One warning for each candidate that is not defined, where it is asked for first. -/
  warned : ∃ unknown, FirstSeen ((a.candidates p.config.markers i).filter (· ∉ i.ids)) unknown ∧
    outcome.messages =
      if a.candidates p.config.markers i = [] then [a.nothing r] else unknown.map a.warning
  once : outcome.messages.Nodup
  unmissed : ∀ m ∈ outcome.messages, m.startsWith "ID not found: " = false
  resolved : outcome.isResolved = true ↔ ∃ id ∈ a.candidates p.config.markers i, id ∈ i.ids
  text : outcome.text =
    if outcome.isResolved then r.render p (result.chains.map (·.query)) result else []

variable {p : Project} {i : TraceIndex} {r : TraceRequest} {a : Asked}
  {tokens candidates known warnings : List Text} {id : Text}

/-! ## The index -/

namespace Project

theorem exists_of_index (indexed : p.index = .ok i) :
    ∃ specs markers, i = TraceIndex.build specs markers := by
  obtain ⟨specs, _, indexed⟩ := bind_eq_ok_iff.mp indexed
  obtain ⟨scan, _, indexed⟩ := bind_eq_ok_iff.mp indexed
  cases indexed
  exact ⟨specs, scan.markers, rfl⟩

end Project

namespace TraceIndex

theorem defines_iff : i.defines id = true ↔ id ∈ i.ids := by
  rw [defines, OrderedMap.hasKey, Option.isSome_iff_exists, ids, OrderedMap.mem_keys_iff]

theorem filter_defines (i : TraceIndex) (l : List Text) :
    l.filter i.defines = l.filter (· ∈ i.ids) :=
  List.filter_congr fun id _ => by simp only [← defines_iff, Bool.decide_eq_true]

theorem filter_not_defines (i : TraceIndex) (l : List Text) :
    (l.filter fun id => !i.defines id) = l.filter (· ∉ i.ids) :=
  List.filter_congr fun id _ => by simp only [← defines_iff, Bool.decide_eq_true, decide_not]

theorem filter_sortBy_ids (i : TraceIndex) :
    (sortBy Text.le i.ids).filter (· ∈ i.ids) = sortBy Text.le i.ids := by
  simp [mem_sortBy]

theorem nodup_ids_of_index (indexed : p.index = .ok i) : i.ids.Nodup := by
  obtain ⟨specs, markers, rfl⟩ := Project.exists_of_index indexed
  exact OrderedMap.nodup_keys_ofList _

end TraceIndex

/-! ## Candidates -/

namespace QuerySet

theorem firstSeen_distinct (ids : List Text) : FirstSeen ids (distinct ids) := by
  have seen := OrderedMap.firstSeen_keys_ofList (ids.map fun id => (id, ()))
  rw [List.map_map] at seen
  unfold distinct
  simpa only [Function.comp_def, List.map_id'] using seen

/-- Candidates are parted into those that are defined and those that are warned about. -/
theorem partition_eq (i : TraceIndex) (warning : Text → Text) (candidates : List Text) :
    ∃ known unknown, partition i warning candidates = ⟨known, unknown.map warning⟩ ∧
      FirstSeen (candidates.filter (· ∈ i.ids)) known ∧
      FirstSeen (candidates.filter (· ∉ i.ids)) unknown := by
  rw [partition, TraceIndex.filter_defines, TraceIndex.filter_not_defines]
  exact ⟨_, _, rfl, (firstSeen_distinct candidates).filter _,
    (firstSeen_distinct candidates).filter _⟩

/-- Where there are candidates there is something to say about them. -/
theorem orSay_partition (filled : candidates ≠ []) (i : TraceIndex) (warning : Text → Text)
    (message : Text) :
    (partition i warning candidates).orSay message = partition i warning candidates := by
  obtain ⟨id, among⟩ := List.exists_mem_of_ne_nil candidates filled
  have own : id ∈ distinct candidates := ((firstSeen_distinct candidates).same id).mpr among
  refine if_neg fun silent => ?_
  simp only [partition, Bool.and_eq_true, decide_eq_true_eq, List.map_eq_nil_iff,
    List.filter_eq_nil_iff] at silent
  exact silent.2 id own (by simpa using silent.1 id own)

end QuerySet

namespace Asked

/-- The identifiers to trace and the messages about the others. -/
def querySet (r : TraceRequest) (tokens : List Text) (i : TraceIndex) : Asked → QuerySet
  | .all => ⟨sortBy Text.le i.ids, []⟩
  | .given ids => .partition i (Asked.given ids).warning ids
  | a => (QuerySet.partition i a.warning (a.candidates tokens i)).orSay (a.nothing r)

theorem querySet?_eq (asked : Asks p.disk r a) :
    r.querySet? p i = some (a.querySet r p.config.markers i) := by
  unfold TraceRequest.querySet?
  cases asked with
  | all every =>
    rw [if_pos every]
    rfl
  | task part named read =>
    rw [if_neg (Bool.eq_false_iff.mp part), named]
    simp only [read]
    rfl
  | file part untasked named read =>
    rw [if_neg (Bool.eq_false_iff.mp part), untasked, named]
    simp only [read]
    rfl
  | given part untasked unfiled filled =>
    rw [if_neg (Bool.eq_false_iff.mp part), untasked, unfiled]
    simp only [if_neg filled]
    rfl

/-- The identifiers to trace and those to warn about part the candidates. -/
theorem querySet_eq (once : i.ids.Nodup) (filled : a.candidates tokens i ≠ []) :
    ∃ known unknown, a.querySet r tokens i = ⟨known, unknown.map a.warning⟩ ∧
      FirstSeen ((a.candidates tokens i).filter (· ∈ i.ids)) known ∧
      FirstSeen ((a.candidates tokens i).filter (· ∉ i.ids)) unknown := by
  obtain ⟨known, unknown, parted, first, rest⟩ :=
    QuerySet.partition_eq i a.warning (a.candidates tokens i)
  have spoken := QuerySet.orSay_partition filled i a.warning (a.nothing r)
  cases a with
  | all =>
    -- here nothing is parted: the candidates are defined, and each stands once
    have none : (sortBy Text.le i.ids).filter (· ∉ i.ids) = [] := by simp [mem_sortBy]
    refine ⟨sortBy Text.le i.ids, [], rfl, ?_, ?_⟩
    · rw [candidates, TraceIndex.filter_sortBy_ids]
      exact .of_nodup ((sortBy_perm _ _).nodup_iff.mpr once)
    · rw [candidates, none]
      exact .nil
  | task path text => exact ⟨known, unknown, spoken.trans parted, first, rest⟩
  | file path text => exact ⟨known, unknown, spoken.trans parted, first, rest⟩
  | given ids => exact ⟨known, unknown, parted, first, rest⟩

theorem warning_injective (a : Asked) : Function.Injective a.warning := by
  intro id id' same
  cases a <;> exact List.append_cancel_left (List.append_cancel_right same)

theorem startsWith_warning (a : Asked) (id : Text) :
    (a.warning id).startsWith "ID not found: " = false := by
  cases a <;> rfl

theorem startsWith_nothing (a : Asked) (r : TraceRequest) :
    (a.nothing r).startsWith "ID not found: " = false := by
  have empty : r.emptyMessage.startsWith "ID not found: " = false := by
    unfold TraceRequest.emptyMessage
    split
    · rfl
    · split <;> rfl
  cases a with
  | task path text => rfl
  | file path text => rfl
  | all => exact empty
  | given ids => exact empty

end Asked

/-! ## Outcomes -/

namespace TraceResult

theorem resolve_of_defined (defined : ∀ id ∈ known, i.defines id = true) (o : TraceOptions) :
    resolve i o known = ⟨known.map (TraceChain.resolve i o), []⟩ := by
  have none : known.filter (fun id => !i.defines id) = [] := by simpa using defined
  rw [resolve, List.filter_eq_self.mpr defined, none]

end TraceResult

namespace TraceRequest

theorem answer_of_known (asked : r.querySet? p i = some ⟨known, warnings⟩)
    (defined : ∀ id ∈ known, i.defines id = true) (filled : known ≠ []) :
    r.answer p i =
      ⟨r.render p known ⟨known.map (TraceChain.resolve i r.options), []⟩, true, warnings⟩ := by
  obtain ⟨id, rest, rfl⟩ := List.exists_cons_of_ne_nil filled
  rw [answer, asked]
  simp only [TraceResult.resolve_of_defined defined, List.map_nil, List.append_nil, List.map_cons,
    List.cons_ne_nil, if_false]

theorem answer_of_unknown (asked : r.querySet? p i = some ⟨[], warnings⟩) :
    r.answer p i = ⟨[], false, if warnings = [] then [r.emptyMessage] else warnings⟩ := by
  rw [answer, asked]
  cases warnings with
  | nil => rfl
  | cons m rest => rfl

/-- Without candidates there is one message, that there are none. -/
theorem answer_of_nothing (asked : Asks p.disk r a) (empty : a.candidates p.config.markers i = []) :
    r.answer p i = ⟨[], false, [a.nothing r]⟩ := by
  have found := Asked.querySet?_eq (i := i) asked
  cases asked with
  | all every =>
    have none : sortBy Text.le i.ids = [] := empty
    rw [Asked.querySet, none] at found
    exact answer_of_unknown found
  | task part named read =>
    have none : QuerySet.taskIds _ = [] := empty
    simp only [Asked.querySet, Asked.candidates, none] at found
    exact answer_of_unknown found
  | file part untasked named read =>
    have none : Marker.idsIn p.config.markers _ = [] := empty
    simp only [Asked.querySet, Asked.candidates, none] at found
    exact answer_of_unknown found
  | given part untasked unfiled filled => exact absurd empty filled

/-- The candidates are parted into those that are traced and those that are warned about. -/
theorem answer_eq (asked : Asks p.disk r a) (once : i.ids.Nodup) : ∃ known unknown,
    FirstSeen ((a.candidates p.config.markers i).filter (· ∈ i.ids)) known ∧
    FirstSeen ((a.candidates p.config.markers i).filter (· ∉ i.ids)) unknown ∧
    r.answer p i =
      ⟨if known = [] then [] else r.render p known ⟨known.map (TraceChain.resolve i r.options), []⟩,
        decide (known ≠ []),
        if a.candidates p.config.markers i = [] then [a.nothing r] else unknown.map a.warning⟩ := by
  by_cases filled : a.candidates p.config.markers i = []
  · refine ⟨[], [], ?_, ?_, ?_⟩
    · rw [filled]
      exact .nil
    · rw [filled]
      exact .nil
    · rw [answer_of_nothing asked filled, if_pos filled]
      rfl
  · obtain ⟨known, unknown, parted, first, rest⟩ := Asked.querySet_eq (r := r) once filled
    have found := (Asked.querySet?_eq asked).trans (congrArg some parted)
    refine ⟨known, unknown, first, rest, ?_⟩
    rw [if_neg filled]
    by_cases traced : known = []
    · -- none of the candidates is defined, so at least one is warned about
      subst traced
      have warned : unknown.map a.warning ≠ [] := by
        obtain ⟨id, among⟩ := List.exists_mem_of_ne_nil _ filled
        have undefined : id ∉ i.ids := fun defined => List.not_mem_nil
          ((first.same id).mpr (List.mem_filter.mpr ⟨among, decide_eq_true defined⟩))
        have reported : id ∈ unknown :=
          (rest.same id).mpr (List.mem_filter.mpr ⟨among, decide_eq_true undefined⟩)
        exact mt List.map_eq_nil_iff.mp (List.ne_nil_of_mem reported)
      rw [answer_of_unknown found, if_neg warned]
      rfl
    · have defined : ∀ id ∈ known, i.defines id = true := fun id member =>
        TraceIndex.defines_iff.mpr
          (of_decide_eq_true (List.mem_filter.mp ((first.same id).mp member)).2)
      rw [answer_of_known found defined traced, if_neg traced, decide_eq_true traced]

end TraceRequest

theorem TraceChain.query_resolve (i : TraceIndex) (o : TraceOptions) (id : Text) :
    (resolve i o id).query = id :=
  query_gathered i o id

/-- An outcome accounts for what is asked for. -/
theorem exists_accounts (asked : Asks p.disk r a) (once : i.ids.Nodup) :
    ∃ result, Accounts p i r a result (r.answer p i) := by
  obtain ⟨known, unknown, first, rest, answer⟩ := TraceRequest.answer_eq asked once
  have queries : (known.map (TraceChain.resolve i r.options)).map (·.query) = known := by
    rw [List.map_map]
    exact List.map_id'' (TraceChain.query_resolve i r.options) known
  refine ⟨⟨known.map (TraceChain.resolve i r.options), []⟩, ?_⟩
  constructor
  case traced =>
    rw [queries]
    exact first
  case chains =>
    refine List.forall_mem_map.mpr fun id _ => ?_
    rw [TraceChain.query_resolve]
  case complete => rfl
  case warned => exact ⟨unknown, rest, by rw [answer]⟩
  case once =>
    rw [answer]
    dsimp only
    split
    · exact List.nodup_singleton _
    · exact rest.once.map a.warning_injective
  case unmissed =>
    rw [answer]
    dsimp only
    split
    · exact List.forall_mem_singleton.mpr (a.startsWith_nothing r)
    · exact List.forall_mem_map.mpr fun id _ => a.startsWith_warning id
  case resolved =>
    rw [answer, decide_eq_true_iff]
    constructor
    · intro traced
      obtain ⟨id, member⟩ := List.exists_mem_of_ne_nil known traced
      obtain ⟨among, defined⟩ := List.mem_filter.mp ((first.same id).mp member)
      exact ⟨id, among, of_decide_eq_true defined⟩
    · rintro ⟨id, among, defined⟩
      exact List.ne_nil_of_mem
        ((first.same id).mpr (List.mem_filter.mpr ⟨among, decide_eq_true defined⟩))
  case text =>
    rw [answer, queries]
    by_cases traced : known = [] <;> simp [traced]

/-- The trace accounts for every identifier that a request asks for: each that is defined has one
chain, each that is not one warning, and the request is resolved if one is defined. Of everything
there is one chain for each identifier of the index, in order. -/
theorem trace_accounts (indexed : p.index = .ok i) (asked : Asks p.disk r a) :
    ∃ result outcome, p.trace r = .ok outcome ∧ Accounts p i r a result outcome ∧
      (a = .all → (result.chains.map (·.query)).Pairwise (Text.le · · = true) ∧
        (result.chains.map (·.query)).Perm i.ids ∧
        (outcome.isResolved = true ↔ i.ids ≠ [])) := by
  have once : i.ids.Nodup := TraceIndex.nodup_ids_of_index indexed
  obtain ⟨result, accounts⟩ := exists_accounts asked once
  refine ⟨result, r.answer p i, by rw [Project.trace, indexed]; rfl, accounts, ?_⟩
  rintro rfl
  have perm : (sortBy Text.le i.ids).Perm i.ids := sortBy_perm _ _
  have queries : result.chains.map (·.query) = sortBy Text.le i.ids := by
    have traced := accounts.traced
    rw [Asked.candidates, TraceIndex.filter_sortBy_ids] at traced
    exact traced.unique (.of_nodup (perm.nodup_iff.mpr once))
  rw [queries, accounts.resolved]
  refine ⟨pairwise_sortBy Text.le_total (fun _ _ _ => Text.le_trans) i.ids, perm, ?_⟩
  constructor
  · rintro ⟨id, _, member⟩
    exact List.ne_nil_of_mem member
  · intro filled
    obtain ⟨id, member⟩ := List.exists_mem_of_ne_nil i.ids filled
    exact ⟨id, mem_sortBy.mpr member, member⟩

/-- A task file with two identifiers and, twice, one that is not defined. -/
def taskLinks : Text := "IMPLEMENTS: X-1_AC-1, Y-2\nTESTS: X-1, Y-2, X-1_AC-1"

/-- A requirement with a criterion, and a task file that links to both. -/
def Project.tasked : Project :=
  let specs := (Disk.blank ["p"]).write ["p", "specs", "a.md"]
    (Text.Utf8.encode "### X-1: First\n- X-1_AC-1 Holds")
  { disk := specs.write ["p", "task.md"] (Text.Utf8.encode taskLinks)
    root := ⟨.root, ["p"]⟩
    config := { specGlobs := ["specs/*.md"] } }

theorem trace_accounts_tasked :
    let p := Project.tasked
    let task : Path := ⟨.root, ["p", "task.md"]⟩
    let r : TraceRequest := { task := some task }
    let a : Asked := .task task taskLinks
    ∃ i, (p.index = .ok i ∧ Asks p.disk r a) ∧
      ∃ result outcome, p.trace r = .ok outcome ∧ Accounts p i r a result outcome ∧
        outcome.isResolved = true ∧
        outcome.messages = [a.warning "Y-2"] := by
  intro p task r a
  obtain ⟨i, indexed⟩ : ∃ i, p.index = .ok i := exists_of_isOk (by decide +kernel)
  have asked : Asks p.disk r a := .task rfl rfl (by decide +kernel)
  obtain ⟨result, outcome, traced, accounts, _⟩ := trace_accounts indexed asked
  have told : (p.trace r).toOption.map (fun o => (o.isResolved, o.messages)) =
      some (true, [a.warning "Y-2"]) := by
    decide +kernel
  rw [traced] at told
  obtain ⟨resolved, messages⟩ := Prod.mk.inj (Option.some.inj told)
  exact ⟨i, ⟨indexed, asked⟩, result, outcome, traced, accounts, resolved, messages⟩

end Traceability
