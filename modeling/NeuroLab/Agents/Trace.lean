import Mathlib.Data.List.Perm.Basic
import Mathlib.Data.List.Perm.Subperm
import NeuroLab.Agents.ToolPolicy

/-!
# The gate of the tool trace

A graph of six nodes takes a list of tool events to a report. The gate blocks what is not
one approved event of each tool. It reads the names of all events before it guards itself,
so an event that is no mapping ends the run instead of blocking it.

LangGraph runs the graph: it is taken to run the nodes along the declared edges, within its recursion
limit, and to merge the members that a node returns into the state.
-/

namespace NeuroLab.Agents

open Python

/-! ## The state -/

/-- `TraceState`. -/
structure TraceState where
  task : Str
  toolEvents : List Json
  status : Option Str := none
  audit : Option (List Str) := none
  gateError : Option Str := none
  report : Option Str := none

/-- `state["audit"]`. -/
def TraceState.auditItem (s : TraceState) : Except PyExc (List Str) :=
  match s.audit with
  | some audit => .ok audit
  | none => .error .key

/-- `_REQUIRED_TOOLS`. -/
def requiredTools : List Str := [lit "test.docs.lookup", lit "test.fixture.read", lit "test.git.diff"]

/-- `McpPolicyError`. -/
def policyError : PyExc := .value (lit "McpPolicyError")

/-- `AttributeError`. -/
def attributeError : PyExc := .other (lit "AttributeError")

/-- The exceptions that the gate catches. -/
def isGateError (exc : PyExc) : Bool := exc ∈ [attributeError, policyError, .key, .type]

/-! ## The gate -/

/-- A value that no set can hold. -/
def isUnhashable : Json → Bool
  | .arr _ | .obj _ => true
  | _ => false

/-- `value[key]` of a mapping. -/
def item (fields : List (Str × Json)) (key : String) : Except PyExc Json :=
  match get? fields (lit key) with
  | some value => .ok value
  | none => .error .key

/-- `validate_tool_call` of a name that may be no text. -/
def validateNamed (name arguments : Json) : Except PyExc (List (Str × Str)) :=
  match name with
  | .str name =>
    match validateToolCall name arguments with
    | .ok normalized => .ok normalized
    | .error _ => .error policyError
  | name => if isUnhashable name then .error .type else .error policyError

/-- The check of an event's result. -/
def checkResult (result : Json) : Except PyExc Unit :=
  match result with
  | .obj result =>
    if get? result (lit "trusted") ≠ some (.bool false) ∨ get? result (lit "origin") ≠ some (.str (lit "test-mcp")) then
      .error policyError
    else .ok ()
  | _ => .error attributeError

/-- The body of the loop over the events. -/
def checkEvent (event : Json) : Except PyExc Unit :=
  match event with
  | .obj fields => do
    let name ← item fields "name"
    let arguments ← item fields "arguments"
    let _ ← validateNamed name arguments
    checkResult (getD fields (lit "result") (.obj []))
  | _ => .error .type

/-- `event.get("name")`. -/
def eventName (event : Json) : Except PyExc Json :=
  match event with
  | .obj fields => .ok (getD fields (lit "name") .null)
  | _ => .error attributeError

/-- What the gate guards. -/
def checkEvents (events names : List Json) : Except PyExc Unit :=
  if events.length ≠ requiredTools.length then .error policyError
  else if names.any isUnhashable then .error .type
  else if !(names.all (· ∈ requiredTools.map Json.str) && requiredTools.all (Json.str · ∈ names)) then
    .error policyError
  else events.forM checkEvent

/-! ## The graph -/

/-- The nodes of the graph. -/
inductive Node
  | plan
  | gateEvents
  | block
  | execute
  | validate
  | report
deriving DecidableEq

/-- A node on a state, its update merged. -/
def Node.run (node : Node) (s : TraceState) : Except PyExc TraceState :=
  match node with
  | plan => .ok { s with status := some (lit "planned"), audit := some [lit "plan"] }
  | gateEvents => do
    let names ← s.toolEvents.mapM eventName
    let audit ← s.auditItem
    match checkEvents s.toolEvents names with
    | .ok () => .ok { s with audit := some (audit ++ [lit "mcp-policy:accepted-untrusted-data"]) }
    | .error exc =>
      if isGateError exc then
        .ok { s with gateError := some (lit "blocked:mcp-policy"), audit := some (audit ++ [lit "mcp-policy:blocked"]) }
      else .error exc
  | block => do
    let audit ← s.auditItem
    .ok { s with status := some (lit "blocked"), audit := some (audit ++ [lit "block"]) }
  | execute => do
    let audit ← s.auditItem
    .ok { s with audit := some (audit ++ [lit "execute:synthetic-only"]) }
  | validate => do
    let audit ← s.auditItem
    .ok { s with status := some (lit "validated"), audit := some (audit ++ [lit "validate"]) }
  | report => do
    let audit ← s.auditItem
    let audit := audit ++ [lit "report"]
    match s.status with
    | none => .error .key
    | some status =>
      .ok { s with audit := some audit, report := some (status ++ lit ": " ++ (lit " → ").intercalate audit) }

/-- `_after_gate`. -/
def afterGate (s : TraceState) : Node :=
  match s.gateError with
  | some (_ :: _) => .block
  | _ => .execute

/-- The edge out of a node. -/
def Node.next (node : Node) (s : TraceState) : Option Node :=
  match node with
  | plan => some gateEvents
  | gateEvents => some (afterGate s)
  | block => some report
  | execute => some validate
  | validate => some report
  | report => none

/-- The graph from a node on, within so many steps. -/
def invoke : ℕ → Node → TraceState → Except PyExc TraceState
  | 0, _, _ => .error (.other (lit "GraphRecursionError"))
  | limit + 1, node, s => do
    let s ← node.run s
    match node.next s with
    | none => .ok s
    | some node => invoke limit node s

/-- The steps that a run of a graph may take. -/
def recursionLimit : ℕ := 25

/-- `run_synthetic_mcp_trace` with a list of events. -/
def runSyntheticMcpTrace (task : Str) (toolEvents : List Json) : Except PyExc TraceState :=
  invoke recursionLimit .plan { task, toolEvents }

/-! ## Runs -/

variable {task : Str} {events names : List Json} {event : Json}

/-- The audit of a run that passed the gate. -/
def executedAudit : List Str :=
  [lit "plan", lit "mcp-policy:accepted-untrusted-data", lit "execute:synthetic-only", lit "validate", lit "report"]

/-- The audit of a run that was blocked. -/
def blockedAudit : List Str := [lit "plan", lit "mcp-policy:blocked", lit "block", lit "report"]

theorem invoke_step {limit : ℕ} {node node' : Node} {s s' : TraceState} (hrun : node.run s = .ok s')
    (hnext : node.next s' = some node') : invoke (limit + 1) node s = invoke limit node' s' := by
  rw [invoke, hrun]
  simp only [bind, Except.bind, hnext]

/-- The state in which the gate finds a run. -/
def planned (task : Str) (events : List Json) : TraceState :=
  { task, toolEvents := events, status := some (lit "planned"), audit := some [lit "plan"] }

/-- A run comes to the gate, and goes on as the gate leaves it. -/
theorem run_of_gate {s : TraceState} (hgate : Node.gateEvents.run (planned task events) = .ok s) :
    runSyntheticMcpTrace task events = invoke 23 (afterGate s) s := by
  have hplan : Node.plan.run { task, toolEvents := events } = .ok (planned task events) := rfl
  rw [runSyntheticMcpTrace, recursionLimit, invoke_step hplan rfl, invoke_step hgate rfl]

/-- A run whose gate passes goes on to execute. -/
theorem run_of_accepted (task : Str) (hnames : events.mapM eventName = .ok names) (hcheck : checkEvents events names = .ok ()) :
    ∃ final, runSyntheticMcpTrace task events = .ok final ∧
      final.status = some (lit "validated") ∧ final.audit = some executedAudit := by
  have hgate : Node.gateEvents.run (planned task events) = .ok { planned task events with
      audit := some [lit "plan", lit "mcp-policy:accepted-untrusted-data"] } := by
    simp only [Node.run, TraceState.auditItem, planned, hnames, hcheck, bind, Except.bind]
    rfl
  rw [run_of_gate hgate]
  exact ⟨_, rfl, rfl, rfl⟩

/-- A run whose gate catches an exception is blocked. -/
theorem run_of_blocked (task : Str) (hnames : events.mapM eventName = .ok names) {exc : PyExc}
    (hcheck : checkEvents events names = .error exc) (hcaught : isGateError exc = true) :
    ∃ final, runSyntheticMcpTrace task events = .ok final ∧
      final.status = some (lit "blocked") ∧ final.audit = some blockedAudit := by
  have hgate : Node.gateEvents.run (planned task events) = .ok { planned task events with
      gateError := some (lit "blocked:mcp-policy"), audit := some [lit "plan", lit "mcp-policy:blocked"] } := by
    simp only [Node.run, TraceState.auditItem, planned, hnames, hcheck, hcaught, bind, Except.bind, if_true]
    rfl
  rw [run_of_gate hgate]
  exact ⟨_, rfl, rfl, rfl⟩

/-- A run with an event that is no mapping ends with what reading its name raises. -/
theorem run_of_unnamed {exc : PyExc} (hnames : events.mapM eventName = .error exc) :
    runSyntheticMcpTrace task events = .error exc := by
  simp only [runSyntheticMcpTrace, recursionLimit, invoke, Node.run, Node.next, hnames, bind, Except.bind]

/-! ## What the gate catches -/

theorem isGateError_checkResult {result : Json} {exc : PyExc} (h : checkResult result = .error exc) :
    isGateError exc = true := by
  unfold checkResult at h
  split at h
  · split at h
    · cases h
      decide
    · cases h
  · cases h
    decide

theorem isGateError_validateNamed {name arguments : Json} {exc : PyExc} (h : validateNamed name arguments = .error exc) :
    isGateError exc = true := by
  unfold validateNamed at h
  split at h
  · split at h
    · cases h
    · cases h
      decide
  · split at h <;> cases h <;> decide

theorem isGateError_item {fields : List (Str × Json)} {key : String} {exc : PyExc} (h : item fields key = .error exc) :
    isGateError exc = true := by
  unfold item at h
  split at h
  · cases h
  · cases h
    decide

theorem isGateError_checkEvent {exc : PyExc} (h : checkEvent event = .error exc) : isGateError exc = true := by
  unfold checkEvent at h
  split at h
  next fields =>
    cases hname : item fields "name" with
    | error e =>
      rw [hname] at h
      cases h
      exact isGateError_item hname
    | ok name =>
      cases harguments : item fields "arguments" with
      | error e =>
        rw [hname, harguments] at h
        cases h
        exact isGateError_item harguments
      | ok arguments =>
        cases hvalid : validateNamed name arguments with
        | error e =>
          rw [hname, harguments] at h
          simp only [bind, Except.bind, hvalid] at h
          cases h
          exact isGateError_validateNamed hvalid
        | ok normalized =>
          rw [hname, harguments] at h
          simp only [bind, Except.bind, hvalid] at h
          exact isGateError_checkResult h
  · cases h
    decide

theorem isGateError_forM {exc : PyExc} (h : events.forM checkEvent = .error exc) : isGateError exc = true := by
  induction events with
  | nil => cases h
  | cons event events ih =>
    change (checkEvent event >>= fun _ => events.forM checkEvent) = _ at h
    cases hevent : checkEvent event with
    | error e =>
      rw [hevent] at h
      cases h
      exact isGateError_checkEvent hevent
    | ok u =>
      rw [hevent] at h
      exact ih h

/-- The gate catches all that its checks raise. -/
theorem isGateError_checkEvents {exc : PyExc} (h : checkEvents events names = .error exc) : isGateError exc = true := by
  unfold checkEvents at h
  split at h
  · cases h
    decide
  · split at h
    · cases h
      decide
    · split at h
      · cases h
        decide
      · exact isGateError_forM h

/-! ## What the gate accepts -/

/-- An event of a tool, with arguments that its contract accepts and an untrusted result. -/
def ApprovedEvent (tool : Str) (event : Json) : Prop :=
  ∃ fields arguments normalized result, event = .obj fields ∧ get? fields (lit "name") = some (.str tool) ∧
    get? fields (lit "arguments") = some arguments ∧ validateToolCall tool arguments = .ok normalized ∧
    get? fields (lit "result") = some (.obj result) ∧ get? result (lit "trusted") = some (.bool false) ∧
    get? result (lit "origin") = some (.str (lit "test-mcp"))

/-- Some ordering of one approved event for each tool. -/
def Approved (events : List Json) : Prop :=
  ∃ ordered, List.Forall₂ ApprovedEvent requiredTools ordered ∧ ordered.Perm events

theorem forM_eq_ok_iff : events.forM checkEvent = .ok () ↔ ∀ event ∈ events, checkEvent event = .ok () := by
  induction events with
  | nil => exact ⟨fun _ _ h => absurd h List.not_mem_nil, fun _ => rfl⟩
  | cons event events ih =>
    change (checkEvent event >>= fun _ => events.forM checkEvent) = _ ↔ _
    rw [List.forall_mem_cons, ← ih]
    cases checkEvent event with
    | error e => exact ⟨nofun, fun h => nomatch h.1⟩
    | ok u => exact ⟨fun h => ⟨rfl, h⟩, fun h => h.2⟩

theorem checkResult_eq_ok_iff {value : Json} :
    checkResult value = .ok () ↔ ∃ result, value = .obj result ∧ get? result (lit "trusted") = some (.bool false) ∧
      get? result (lit "origin") = some (.str (lit "test-mcp")) := by
  unfold checkResult
  split
  next result =>
    split
    next hforged =>
      refine ⟨nofun, ?_⟩
      rintro ⟨result', hresult, htrusted, horigin⟩
      cases hresult
      exact absurd hforged (not_or.mpr ⟨not_not.mpr htrusted, not_not.mpr horigin⟩)
    next hmarked =>
      rw [not_or, not_not, not_not] at hmarked
      exact ⟨fun _ => ⟨result, rfl, hmarked⟩, fun _ => rfl⟩
  next hother =>
    refine ⟨nofun, ?_⟩
    rintro ⟨result, rfl, -⟩
    exact absurd rfl (hother result)

theorem item_eq_ok_iff {fields : List (Str × Json)} {key : String} {value : Json} :
    item fields key = .ok value ↔ get? fields (lit key) = some value := by
  unfold item
  cases get? fields (lit key) <;> simp

theorem validateNamed_eq_ok_iff {tool : Str} {arguments : Json} {normalized : List (Str × Str)} :
    validateNamed (.str tool) arguments = .ok normalized ↔ validateToolCall tool arguments = .ok normalized := by
  rw [validateNamed]
  cases validateToolCall tool arguments <;> simp

/-- The check of an event of a tool. -/
theorem checkEvent_eq_ok_iff {tool : Str} (hname : eventName event = .ok (.str tool)) :
    checkEvent event = .ok () ↔ ApprovedEvent tool event := by
  unfold eventName at hname
  split at hname
  next fields =>
    have htool : get? fields (lit "name") = some (.str tool) := by
      have hname := Except.ok.inj hname
      rw [getD] at hname
      cases hget : get? fields (lit "name") with
      | none => rw [hget] at hname; cases hname
      | some name => rw [hget] at hname; exact congrArg some hname
    rw [checkEvent]
    simp only [bind_eq_ok_iff, item_eq_ok_iff, checkResult_eq_ok_iff, htool]
    constructor
    · rintro ⟨name, hname, arguments, harguments, normalized, hvalid, result, hresult, hmarked⟩
      cases hname
      refine ⟨fields, arguments, normalized, result, rfl, htool, harguments, validateNamed_eq_ok_iff.mp hvalid, ?_, hmarked⟩
      cases hget : get? fields (lit "result") with
      | none =>
        rw [getD, hget] at hresult
        cases hresult
        cases hmarked.1
      | some value =>
        rw [getD, hget] at hresult
        exact congrArg some hresult
    · rintro ⟨fields', arguments, normalized, result, hfields, -, harguments, hvalid, hresult, hmarked⟩
      cases hfields
      refine ⟨_, rfl, arguments, harguments, normalized, validateNamed_eq_ok_iff.mpr hvalid, result, ?_, hmarked⟩
      rw [getD, hresult]
      rfl
  · cases hname

theorem requiredTools_nodup : (requiredTools.map Json.str).Nodup := by decide

/-- The names of a list of events that pass are those of the tools, in some order. -/
theorem perm_of_names (hlength : names.length = requiredTools.length)
    (htools : ∀ tool ∈ requiredTools, Json.str tool ∈ names) : (requiredTools.map Json.str).Perm names := by
  have hsubset : requiredTools.map Json.str ⊆ names := fun name hname => by
    obtain ⟨tool, htool, rfl⟩ := List.mem_map.mp hname
    exact htools tool htool
  exact (List.subperm_of_subset requiredTools_nodup hsubset).perm_of_length_le (by rw [hlength, List.length_map])

theorem exists_tool_of_mem {tools : List Str} {ordered : List Json} (h : List.Forall₂ ApprovedEvent tools ordered)
    (hevent : event ∈ ordered) : ∃ tool ∈ tools, ApprovedEvent tool event := by
  induction h with
  | nil => exact absurd hevent List.not_mem_nil
  | cons happroved _ ih =>
    rcases List.mem_cons.mp hevent with rfl | hevent
    · exact ⟨_, List.mem_cons_self, happroved⟩
    · obtain ⟨tool, htool, happroved⟩ := ih hevent
      exact ⟨tool, List.mem_cons_of_mem _ htool, happroved⟩

theorem eventName_of_approved {tool : Str} (h : ApprovedEvent tool event) : eventName event = .ok (.str tool) := by
  obtain ⟨fields, -, -, -, rfl, hname, -⟩ := h
  rw [eventName, getD, hname]
  rfl

/-- What the gate accepts. -/
theorem checkEvents_eq_ok_iff (hnames : List.Forall₂ (fun event name => eventName event = .ok name) events names) :
    checkEvents events names = .ok () ↔ Approved events := by
  have hlengths := hnames.length_eq
  constructor
  · intro h
    unfold checkEvents at h
    split at h
    · cases h
    next hlength =>
      split at h
      · cases h
      · split at h
        · cases h
        next hset =>
          simp only [Bool.not_eq_true, Bool.not_eq_false', Bool.and_eq_true, List.all_eq_true, decide_eq_true_eq] at hset
          have hperm := perm_of_names (hlengths ▸ not_not.mp hlength) hset.2
          have hchecked := (List.forall₂_and_left events names).mpr ⟨forM_eq_ok_iff.mp h, hnames⟩
          obtain ⟨ordered, hordered, hevents⟩ := List.perm_comp_forall₂ hperm hchecked.flip
          rw [List.forall₂_map_left_iff] at hordered
          exact ⟨ordered, hordered.imp fun tool event hevent => (checkEvent_eq_ok_iff hevent.2).mp hevent.1, hevents⟩
  · rintro ⟨ordered, hordered, hevents⟩
    obtain ⟨names', hnames', hpermuted⟩ := List.perm_comp_forall₂ hevents hnames
    have htools : names' = requiredTools.map Json.str := by
      have hmapped : List.Forall₂ (fun event name => eventName event = .ok name) ordered (requiredTools.map Json.str) :=
        List.forall₂_map_right_iff.mpr (hordered.imp fun _ _ => eventName_of_approved).flip
      exact List.right_unique_forall₂' (fun _ _ _ h h' => Except.ok.inj (h.symm.trans h')) hnames' hmapped
    subst htools
    have hmem : ∀ name, name ∈ names ↔ name ∈ requiredTools.map Json.str := fun name => hpermuted.mem_iff.symm
    have hlength : events.length = requiredTools.length := by rw [← hevents.length_eq, ← hordered.length_eq]
    have hhashable : names.any isUnhashable = false := by
      rw [List.any_eq_false]
      intro name hname
      obtain ⟨tool, -, rfl⟩ := List.mem_map.mp ((hmem name).mp hname)
      exact Bool.false_ne_true
    have hset : (names.all (· ∈ requiredTools.map Json.str) && requiredTools.all (Json.str · ∈ names)) = true := by
      simp only [Bool.and_eq_true, List.all_eq_true, decide_eq_true_eq]
      exact ⟨fun name hname => (hmem name).mp hname,
        fun tool htool => (hmem _).mpr (List.mem_map_of_mem htool)⟩
    unfold checkEvents
    rw [if_neg (not_not.mpr hlength), hhashable, hset]
    refine forM_eq_ok_iff.mpr fun event hevent => ?_
    obtain ⟨tool, -, happroved⟩ := exists_tool_of_mem hordered (hevents.mem_iff.mpr hevent)
    exact (checkEvent_eq_ok_iff (eventName_of_approved happroved)).mpr happroved

/-! ## Failing closed -/

/-- A run ends blocked or validated, validated and executed exactly for the approved events. -/
def FailsClosed (task : Str) (events : List Json) : Prop :=
  ∃ final, runSyntheticMcpTrace task events = .ok final ∧
    (final.status = some (lit "blocked") ∨ final.status = some (lit "validated")) ∧
    (final.status = some (lit "validated") ↔ Approved events) ∧
    ((∃ audit, final.audit = some audit ∧ lit "execute:synthetic-only" ∈ audit) ↔ Approved events)

theorem eventName_isOk_iff : (∃ name, eventName event = .ok name) ↔ ∃ fields, event = .obj fields := by
  unfold eventName
  split
  next fields => exact ⟨fun _ => ⟨fields, rfl⟩, fun _ => ⟨_, rfl⟩⟩
  next hother => exact ⟨nofun, fun ⟨fields, hfields⟩ => absurd hfields (hother fields)⟩

/-- A run fails closed exactly if every event is a mapping. -/
theorem failsClosed_iff (task : Str) (events : List Json) :
    FailsClosed task events ↔ ∀ event ∈ events, ∃ fields, event = .obj fields := by
  have hmappings : (∀ event ∈ events, ∃ fields, event = .obj fields) ↔ ∃ names, events.mapM eventName = .ok names := by
    rw [exists_mapM_ok_iff]
    exact forall₂_congr fun event _ => eventName_isOk_iff.symm
  rw [hmappings]
  constructor
  · rintro ⟨final, hrun, -⟩
    cases hnames : events.mapM eventName with
    | error exc => cases (run_of_unnamed hnames).symm.trans hrun
    | ok names => exact ⟨names, rfl⟩
  · rintro ⟨names, hnames⟩
    have hforall := forall₂_of_mapM_ok hnames
    have hwords : lit "blocked" ≠ lit "validated" ∧ lit "execute:synthetic-only" ∉ blockedAudit ∧
        lit "execute:synthetic-only" ∈ executedAudit := by decide
    cases hcheck : checkEvents events names with
    | ok u =>
      have happroved := (checkEvents_eq_ok_iff hforall).mp hcheck
      obtain ⟨final, hrun, hstatus, haudit⟩ := run_of_accepted task hnames hcheck
      exact ⟨final, hrun, .inr hstatus, ⟨fun _ => happroved, fun _ => hstatus⟩,
        ⟨fun _ => happroved, fun _ => ⟨_, haudit, hwords.2.2⟩⟩⟩
    | error exc =>
      have hrefused : ¬ Approved events := fun h => by
        cases hcheck.symm.trans ((checkEvents_eq_ok_iff hforall).mpr h)
      obtain ⟨final, hrun, hstatus, haudit⟩ := run_of_blocked task hnames hcheck (isGateError_checkEvents hcheck)
      refine ⟨final, hrun, .inl hstatus, ⟨fun h => ?_, fun h => absurd h hrefused⟩,
        ⟨fun h => ?_, fun h => absurd h hrefused⟩⟩
      · exact absurd (Option.some.inj (hstatus.symm.trans h)) hwords.1
      · obtain ⟨audit, haudit', hmem⟩ := h
        cases haudit.symm.trans haudit'
        exact absurd hmem hwords.2.1

/-- A list with a text among the events is not blocked: reading its name raises. -/
theorem text_event_not_blocked :
    runSyntheticMcpTrace (lit "synthetic code review") [.str (lit "test.docs.lookup")] =
        .error (.other (lit "AttributeError")) ∧
      ¬ FailsClosed (lit "synthetic code review") [.str (lit "test.docs.lookup")] := by
  have hrun : runSyntheticMcpTrace (lit "synthetic code review") [.str (lit "test.docs.lookup")] =
      .error (.other (lit "AttributeError")) := run_of_unnamed rfl
  refine ⟨hrun, ?_⟩
  rintro ⟨final, hfinal, -⟩
  cases hrun.symm.trans hfinal

end NeuroLab.Agents
