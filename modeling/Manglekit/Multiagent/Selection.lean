import Manglekit.Engine.Instances
import Manglekit.Multiagent.AgentSystem

/-!
# Which agents are selected

The query for a task is a conjunction of four atoms, and a query reads one atom.  What is
selected are all agents that can be looked up, whatever they can do and whatever their status.
-/

namespace Manglekit.Multiagent

open Core Engine Datalog

/-! ## Who should run a task -/

def stringTerm (text : String) : Term := .const (.string text)

def Eligible (store : Store) (task id : String) : Prop :=
  ∃ term role capability, constantToString term = .ok id ∧
    (⟨"agent", [term, role]⟩ : Datalog.Atom) ∈ store ∧
    (⟨"agent_capability", [term, capability]⟩ : Datalog.Atom) ∈ store ∧
    (⟨"agent_status", [term, stringTerm statusAvailable]⟩ : Datalog.Atom) ∈ store ∧
    (⟨"task_requires_capability", [stringTerm task, capability]⟩ : Datalog.Atom) ∈ store

/-- Exactly the eligible agents are found, there is an error if there are none, and nodes run
on eligible agents only. -/
structure SelectsEligible (system : AgentSystem) (task : String) : Prop where
  selected : ∀ agents, (system.findAgentsForTask task).1 = .ok agents →
    agents ≠ [] ∧ (agents.map (·.id)).Nodup ∧
      ∀ id, id ∈ agents.map (·.id) ↔ Eligible system.store task id
  refused : ∀ err, (system.findAgentsForTask task).1 = .error err →
    ∀ id, ¬ Eligible system.store task id
  confined : ∀ (executor : WorkflowExecutor) (node : WorkflowNode) (input : Value),
    node.agent = task → ∀ agent ∈ (executor.executeNode system node input).1.ranOn,
      Eligible system.store task agent.id

/-! ## Reading the queries -/

def writtenChar (char : Char) : Char :=
  if char = '\n' ∨ char = '\r' ∨ char = '\t' then char
  else if char.toNat < 32 then ' '
  else char

def written (text : String) : String := String.ofList (text.toList.map writtenChar)

def agentAtom : Datalog.Atom := ⟨"agent", [.var "AgentID", .var "_"]⟩

def roleAtom (agentID : String) : Datalog.Atom :=
  ⟨"agent", [stringTerm (written agentID), .var "Role"]⟩

def capabilityAtom (agentID : String) : Datalog.Atom :=
  ⟨"agent_capability", [stringTerm (written agentID), .var "Capability"]⟩

def configAtom (agentID : String) : Datalog.Atom :=
  ⟨"agent_config", [stringTerm (written agentID), .var "Key", .var "Value"]⟩

/-- The parser reads the first atom of a text and leaves the rest. -/
structure ReadsFirstAtom (parseAtom : String → Except GoError Datalog.Atom) : Prop where
  task : ∀ task, parseAtom (AgentSystem.taskQuery task) = .ok agentAtom
  role : ∀ agentID, parseAtom (AgentSystem.roleQuery agentID) = .ok (roleAtom agentID)
  capability : ∀ agentID,
    parseAtom (AgentSystem.capabilityQuery agentID) = .ok (capabilityAtom agentID)
  config : ∀ agentID, parseAtom (AgentSystem.configQuery agentID) = .ok (configAtom agentID)

/-! ## What the queries report -/

section Queries

def Readable (store : Store) (queryAtom : Datalog.Atom) : Prop :=
  ∀ fact ∈ store.getFacts queryAtom.predicate, Convertible queryAtom.args fact.args

def textOf (term : Term) : String := (constantToString term).toOption.getD ""

def roleOf (agentID : String) (fact : Datalog.Atom) : Option Term :=
  match fact.args with
  | [subject, role] => if stringTerm (written agentID) = subject then some role else none
  | _ => none

variable {system : AgentSystem} {query : String} {queryAtom : Datalog.Atom}
  (parses : system.parseAtom query = .ok queryAtom)
include parses

theorem query_cases :
    (Readable system.store queryAtom ∧
        system.query query = .ok
          (reportSolutions queryAtom (system.store.getFacts queryAtom.predicate)).reported) ∨
      (¬ Readable system.store queryAtom ∧ ∃ err, system.query query = .error err) := by
  have run : solutionsIn system.parseAtom system.store query =
      reportSolutions queryAtom (system.store.getFacts queryAtom.predicate) := by
    simp [solutionsIn, parseQuery, parses]
  rw [Readable, ← err_eq_none_iff_convertible]
  unfold AgentSystem.query
  simp only [run]
  cases (reportSolutions queryAtom (system.store.getFacts queryAtom.predicate)).err with
  | none => exact .inl ⟨rfl, rfl⟩
  | some err => exact .inr ⟨by simp, err, rfl⟩

end Queries

theorem args_of_visited {store : Store} {fact : Datalog.Atom}
    (visited : fact ∈ store.getFacts ⟨"agent", 2⟩) :
    ∃ subject role, fact = ⟨"agent", [subject, role]⟩ ∧ fact ∈ store := by
  obtain ⟨stored, same⟩ := Store.mem_getFacts.mp visited
  obtain ⟨symbol, args⟩ := fact
  obtain ⟨rfl, arity⟩ := PredicateSym.mk.inj same
  obtain ⟨subject, role, rfl⟩ := List.length_eq_two.mp arity
  exact ⟨subject, role, rfl, stored⟩

theorem textOf_of_ok {term : Term} {text : String} (converted : constantToString term = .ok text) :
    textOf term = text := by
  simp [textOf, converted, Except.toOption]

theorem mem_reported_agents {store : Store} (readable : Readable store agentAtom) (id : String) :
    id ∈ (reportSolutions agentAtom (store.getFacts agentAtom.predicate)).reported.map
        (valueOf · "AgentID") ↔
      ∃ term role, (⟨"agent", [term, role]⟩ : Datalog.Atom) ∈ store ∧ textOf term = id := by
  have success := err_eq_none_iff_convertible.mpr readable
  simp only [List.mem_map, mem_reported_iff success]
  constructor
  · rintro ⟨solution, ⟨fact, visited, unified⟩, rfl⟩
    obtain ⟨term, role, rfl, stored⟩ := args_of_visited visited
    obtain ⟨⟨text, converted⟩, ⟨other, otherConverted⟩, -⟩ := readable _ visited
    refine ⟨term, role, stored, ?_⟩
    have solved : ((∅ : Solution).insert "AgentID" text).insert "_" other = solution := by
      simpa [agentAtom, unifyArgs, converted, otherConverted] using unified
    rw [textOf_of_ok converted, valueOf, ← solved, AList.lookup_insert_ne (by decide),
      AList.lookup_insert, Option.getD_some]
  · rintro ⟨term, role, stored, rfl⟩
    have visited : (⟨"agent", [term, role]⟩ : Datalog.Atom) ∈
        store.getFacts agentAtom.predicate := Store.mem_getFacts.mpr ⟨stored, rfl⟩
    obtain ⟨⟨text, converted⟩, ⟨other, otherConverted⟩, -⟩ := readable _ visited
    refine ⟨((∅ : Solution).insert "AgentID" text).insert "_" other, ⟨_, visited, ?_⟩, ?_⟩
    · simp [agentAtom, unifyArgs, converted, otherConverted]
    · rw [textOf_of_ok converted, valueOf, AList.lookup_insert_ne (by decide),
        AList.lookup_insert, Option.getD_some]

theorem roleIn_reportSolutions {agentID : String} {facts : List Datalog.Atom}
    (arity : ∀ fact ∈ facts, fact.args.length = 2)
    (readable : ∀ fact ∈ facts, Convertible (roleAtom agentID).args fact.args) :
    AgentSystem.roleIn (reportSolutions (roleAtom agentID) facts).reported =
      (facts.findSome? (roleOf agentID)).elim "" textOf := by
  induction facts with
  | nil => rfl
  | cons fact rest ih =>
    rw [List.forall_mem_cons] at arity readable
    obtain ⟨subject, role, args⟩ := List.length_eq_two.mp arity.1
    have convertible := readable.1
    rw [roleAtom, args] at convertible
    by_cases same : stringTerm (written agentID) = subject
    · obtain ⟨⟨text, converted⟩, -⟩ := convertible same
      have unified : unifyArgs (roleAtom agentID).args fact.args ∅ =
          .ok (some ((∅ : Solution).insert "Role" text)) := by
        rw [args, ← same]
        simp [roleAtom, stringTerm, unifyArgs, converted]
      have found : roleOf agentID fact = some role := by simp [roleOf, args, same]
      rw [List.findSome?_cons, found, reportSolutions, unified]
      rw [Option.elim_some, textOf_of_ok converted]
      simp only [AgentSystem.roleIn, valueOf, AList.lookup_insert, Option.getD_some]
    · have unified : unifyArgs (roleAtom agentID).args fact.args ∅ = .ok none := by
        rw [args]
        exact if_neg same
      have found : roleOf agentID fact = none := by simp [roleOf, args, same]
      rw [List.findSome?_cons, found, reportSolutions, unified]
      exact ih arity.2 readable.2

/-! ## Who is found -/

/-- What is known about the agent can be reported, and its first role is not empty. -/
structure Described (store : Store) (agentID : String) : Prop where
  role : Readable store (roleAtom agentID)
  capability : Readable store (capabilityAtom agentID)
  config : Readable store (configAtom agentID)
  named : ((store.getFacts ⟨"agent", 2⟩).findSome? (roleOf agentID)).elim "" textOf ≠ ""

def Findable (system : AgentSystem) (agentID : String) : Prop :=
  (system.registry.lookup agentID).isSome ∨ Described system.store agentID

structure LookedUp (before after : AgentSystem) (agentID : String) : Prop where
  store : after.store = before.store
  parseAtom : after.parseAtom = before.parseAtom
  others : ∀ other, other ≠ agentID → after.registry.lookup other = before.registry.lookup other

theorem LookedUp.refl (system : AgentSystem) (agentID : String) :
    LookedUp system system agentID := ⟨rfl, rfl, fun _ _ => rfl⟩

theorem LookedUp.findable_iff {before after : AgentSystem} {agentID other : String}
    (lookedUp : LookedUp before after agentID) (different : other ≠ agentID) :
    Findable after other ↔ Findable before other := by
  rw [Findable, Findable, lookedUp.store, lookedUp.others other different]

theorem lookedUp_register (system : AgentSystem) (agent : Agent) :
    LookedUp system (system.register agent) agent.id :=
  ⟨rfl, rfl, fun _ different => AList.lookup_insert_ne different⟩

theorem getAgent_spec (system : AgentSystem) (reads : ReadsFirstAtom system.parseAtom)
    (agentID : String) :
    LookedUp system (system.getAgent agentID).2 agentID ∧
      ((Findable system agentID ∧
          ∃ agent, (system.getAgent agentID).1 = .ok agent ∧ agent.id = agentID) ∨
        (¬ Findable system agentID ∧ ∃ err, (system.getAgent agentID).1 = .error err)) := by
  unfold AgentSystem.getAgent
  rcases listed : system.registry.lookup agentID with _ | agent
  · have findable : Findable system agentID ↔ Described system.store agentID := by
      simp [Findable, listed]
    rw [findable]
    rcases query_cases (reads.role agentID) with ⟨role, roles⟩ | ⟨unread, err, failed⟩
    · rcases query_cases (reads.capability agentID) with
        ⟨capability, capabilities⟩ | ⟨unread, err, failed⟩
      · rcases query_cases (reads.config agentID) with ⟨config, configs⟩ | ⟨unread, err, failed⟩
        · simp only [roles, capabilities, configs]
          have first := roleIn_reportSolutions (fun fact visited =>
            (PredicateSym.mk.inj (Store.mem_getFacts.mp visited).2).2) role
          split_ifs with unnamed
          · refine ⟨.refl system agentID, .inr ⟨fun described => ?_, _, rfl⟩⟩
            exact described.named (first.symm.trans unnamed)
          · exact ⟨lookedUp_register system _, .inl ⟨⟨role, capability, config,
              fun empty => unnamed (first.trans empty)⟩, _, rfl, rfl⟩⟩
        · simp only [roles, capabilities, failed]
          exact ⟨.refl system agentID, .inr ⟨fun described => unread described.config, _, rfl⟩⟩
      · simp only [roles, failed]
        exact ⟨.refl system agentID, .inr ⟨fun described => unread described.capability, _, rfl⟩⟩
    · simp only [failed]
      exact ⟨.refl system agentID, .inr ⟨fun described => unread described.role, _, rfl⟩⟩
  · exact ⟨.refl system agentID, .inl ⟨.inl (by simp [listed]), agent, rfl,
      system.keyed agentID agent listed⟩⟩

theorem collectAgents_spec {system : AgentSystem} (reads : ReadsFirstAtom system.parseAtom)
    (seen ids : List String) :
    ((system.collectAgents seen ids).1.map (·.id)).Nodup ∧
      ∀ id, id ∈ (system.collectAgents seen ids).1.map (·.id) ↔
        id ∈ ids ∧ id ∉ seen ∧ Findable system id := by
  induction ids generalizing system seen with
  | nil => simp [AgentSystem.collectAgents]
  | cons head rest ih =>
    rw [AgentSystem.collectAgents]
    split_ifs with old
    · obtain ⟨nodup, members⟩ := ih reads seen
      refine ⟨nodup, fun id => (members id).trans ?_⟩
      refine ⟨fun ⟨later, fresh⟩ => ⟨List.mem_cons_of_mem _ later, fresh⟩, ?_⟩
      rintro ⟨listed, fresh⟩
      exact ⟨(List.mem_cons.mp listed).resolve_left fun same => fresh.1 (same ▸ old), fresh⟩
    · obtain ⟨lookedUp, outcome⟩ := getAgent_spec system reads head
      rcases found : system.getAgent head with ⟨answer, after⟩
      rw [found] at lookedUp outcome
      obtain ⟨nodup, members⟩ := ih
        (show ReadsFirstAtom after.parseAtom from lookedUp.parseAtom ▸ reads) (head :: seen)
      -- Later identifiers differ from the head, so looking it up does not concern them.
      have others (id : String) : id ∈ (after.collectAgents (head :: seen) rest).1.map (·.id) ↔
          id ≠ head ∧ id ∈ rest ∧ id ∉ seen ∧ Findable system id := by
        rw [members, List.mem_cons, not_or]
        constructor
        · rintro ⟨listed, ⟨different, fresh⟩, findable⟩
          exact ⟨different, listed, fresh, (lookedUp.findable_iff different).mp findable⟩
        · rintro ⟨different, listed, fresh, findable⟩
          exact ⟨listed, ⟨different, fresh⟩, (lookedUp.findable_iff different).mpr findable⟩
      rcases outcome with ⟨findable, agent, rfl, rfl⟩ | ⟨lost, err, rfl⟩
      · simp only [List.map_cons, List.nodup_cons, List.mem_cons]
        refine ⟨⟨fun again => ((others _).mp again).1 rfl, nodup⟩, fun id => ?_⟩
        rw [others]
        by_cases same : id = agent.id
        · subst same
          simp [old, findable]
        · simp [same]
      · refine ⟨nodup, fun id => (others id).trans ?_⟩
        rw [List.mem_cons]
        by_cases same : id = head
        · subst same
          simp [lost]
        · simp [same]

/-! ## Nodes -/

variable (executor : WorkflowExecutor)

theorem attemptNode_ranOn (node : WorkflowNode) (agent : Agent)
    (result : NodeResult) (attempt left : Nat) :
    ∀ other ∈ (executor.attemptNode node agent result attempt left).ranOn, other = agent := by
  induction left generalizing attempt with
  | zero => simp [WorkflowExecutor.attemptNode]
  | succ left ih =>
    rw [WorkflowExecutor.attemptNode]
    split
    · simp
    · split_ifs
      · simp
      · split
        · simp
        · exact List.forall_mem_cons.mpr ⟨rfl, ih (attempt + 1)⟩

theorem executeNode_ranOn (system : AgentSystem)
    (node : WorkflowNode) (input : Value) {agent : Agent}
    (ran : agent ∈ (executor.executeNode system node input).1.ranOn) :
    ∃ agents, (system.findAgentsForTask node.agent).1 = .ok agents ∧ agent ∈ agents := by
  unfold WorkflowExecutor.executeNode at ran
  rcases found : system.findAgentsForTask node.agent with ⟨_ | _ | ⟨first, others⟩, after⟩
  · simp [found] at ran
  · simp [found] at ran
  · simp only [found] at ran
    obtain rfl := attemptNode_ranOn executor node first _ 0 _ agent ran
    exact ⟨_, rfl, List.mem_cons_self⟩

/-! ## Selection -/

section Selection

variable {system : AgentSystem} (reads : ReadsFirstAtom system.parseAtom) (task : String)
include reads

theorem findAgentsForTask_cases :
    (¬ Readable system.store agentAtom ∧
        ∃ err, (system.findAgentsForTask task).1 = .error err) ∨
      (Readable system.store agentAtom ∧ ∃ agents : List Agent,
        (agents.map (·.id)).Nodup ∧
        (∀ id, id ∈ agents.map (·.id) ↔ Findable system id ∧
          ∃ term role, (⟨"agent", [term, role]⟩ : Datalog.Atom) ∈ system.store ∧ textOf term = id) ∧
        ((agents = [] ∧ ∃ err, (system.findAgentsForTask task).1 = .error err) ∨
          (agents ≠ [] ∧ (system.findAgentsForTask task).1 = .ok agents))) := by
  rcases query_cases (reads.task task) with ⟨readable, reported⟩ | ⟨unread, err, failed⟩
  · refine .inr ⟨readable, ?_⟩
    obtain ⟨nodup, members⟩ := collectAgents_spec reads []
      ((reportSolutions agentAtom (system.store.getFacts agentAtom.predicate)).reported.map
        (valueOf · "AgentID"))
    rcases collected : system.collectAgents [] ((reportSolutions agentAtom
      (system.store.getFacts agentAtom.predicate)).reported.map (valueOf · "AgentID"))
      with ⟨agents, after⟩
    rw [collected] at nodup members
    refine ⟨agents, nodup, fun id => ?_, ?_⟩
    · rw [members, mem_reported_agents readable]
      simp [and_comm]
    · simp only [AgentSystem.findAgentsForTask, reported, collected]
      cases agents with
      | nil => exact .inl ⟨rfl, _, rfl⟩
      | cons agent others => exact .inr ⟨List.cons_ne_nil _ _, rfl⟩
  · refine .inl ⟨unread, .wrap "query failed" err, ?_⟩
    simp only [AgentSystem.findAgentsForTask, failed]

omit reads in
theorem confined_of_selected
    (selected : ∀ agents, (system.findAgentsForTask task).1 = .ok agents →
      ∀ id, id ∈ agents.map (·.id) ↔ Eligible system.store task id)
    (executor : WorkflowExecutor) (node : WorkflowNode) (input : Value)
    (forTask : node.agent = task) :
    ∀ agent ∈ (executor.executeNode system node input).1.ranOn,
      Eligible system.store task agent.id := by
  intro agent ran
  obtain ⟨agents, found, member⟩ := executeNode_ranOn executor system node input ran
  exact (selected agents (forTask ▸ found) agent.id).mp (List.mem_map_of_mem member)

/-- Exactly the eligible agents are selected if each agent can be looked up exactly if it is
eligible, or if the facts about agents cannot be reported and no agent is eligible. -/
theorem selects_eligible_iff :
    SelectsEligible system task ↔
      (Readable system.store agentAtom → ∀ term role,
        (⟨"agent", [term, role]⟩ : Datalog.Atom) ∈ system.store →
          (Findable system (textOf term) ↔ Eligible system.store task (textOf term))) ∧
      (¬ Readable system.store agentAtom → ∀ id, ¬ Eligible system.store task id) := by
  rcases findAgentsForTask_cases reads task with
    ⟨unread, err, failed⟩ | ⟨readable, agents, nodup, members, outcome⟩
  · constructor
    · intro selects
      exact ⟨fun readable => absurd readable unread, fun _ => selects.refused err failed⟩
    · rintro ⟨-, nobody⟩
      have unselected : ∀ agents, (system.findAgentsForTask task).1 ≠ .ok agents := by
        simp [failed]
      exact ⟨fun agents found => absurd found (unselected agents), fun _ _ => nobody unread,
        confined_of_selected task fun agents found => absurd found (unselected agents)⟩
  · have found (term role : Term)
        (stored : (⟨"agent", [term, role]⟩ : Datalog.Atom) ∈ system.store) :
        textOf term ∈ agents.map (·.id) ↔ Findable system (textOf term) := by
      rw [members]
      exact ⟨And.left, fun findable => ⟨findable, term, role, stored, rfl⟩⟩
    constructor
    · intro selects
      refine ⟨fun _ term role stored => ?_, fun unread => absurd readable unread⟩
      rw [← found term role stored]
      rcases outcome with ⟨rfl, err, failed⟩ | ⟨-, answered⟩
      · exact iff_of_false (by simp) (selects.refused err failed _)
      · exact (selects.selected agents answered).2.2 _
    · rintro ⟨lookups, -⟩
      have eligible (id : String) : id ∈ agents.map (·.id) ↔ Eligible system.store task id := by
        constructor
        · intro listed
          obtain ⟨findable, term, role, stored, rfl⟩ := (members id).mp listed
          exact (lookups readable term role stored).mp findable
        · intro able
          have ⟨term, role, _, printed, stored, _⟩ := able
          obtain rfl := textOf_of_ok printed
          exact (found term role stored).mpr ((lookups readable term role stored).mpr able)
      rcases outcome with ⟨rfl, err, failed⟩ | ⟨nonempty, answered⟩
      · have unselected : ∀ agents, (system.findAgentsForTask task).1 ≠ .ok agents := by
          simp [failed]
        refine ⟨fun agents found => absurd found (unselected agents), fun _ _ id able => ?_,
          confined_of_selected task fun agents found => absurd found (unselected agents)⟩
        simpa using (eligible id).mpr able
      · have same {agents' : List Agent}
            (found : (system.findAgentsForTask task).1 = .ok agents') : agents' = agents :=
          Except.ok.inj (found.symm.trans answered)
        refine ⟨fun agents' found => ?_, fun err failed => ?_,
          confined_of_selected task fun agents' found => same found ▸ eligible⟩
        · rw [same found]
          exact ⟨nonempty, nodup, eligible⟩
        · simp [answered] at failed

end Selection

/-! ## A concrete parser -/

section Parser

def parseFirstAtom (text : String) : Except GoError Datalog.Atom :=
  match (tokens text.toList).bind readAtom with
  | some (atom, _) => .ok atom
  | none => .error (.text "syntax error")

theorem lex_escapeChar (char : Char) (reversed rest : List Char) :
    lex (.text reversed) (escapeChar char ++ rest) =
      lex (.text (writtenChar char :: reversed)) rest := by
  by_cases marked : char = '\\' ∨ char = '"'
  · rcases marked with rfl | rfl <;> rfl
  · obtain ⟨plain, unquoted⟩ := not_or.mp marked
    by_cases control : char = '\n' ∨ char = '\r' ∨ char = '\t'
    · rcases control with rfl | rfl | rfl <;> rfl
    · obtain ⟨feed, carriage, tab⟩ : char ≠ '\n' ∧ char ≠ '\r' ∧ char ≠ '\t' := by
        simpa [not_or] using control
      by_cases low : char.toNat < 32 <;>
        simp [escapeChar, writtenChar, plain, unquoted, feed, carriage, tab, low, lex]

theorem lex_escaped (text reversed rest : List Char) :
    lex (.text reversed) (text.flatMap escapeChar ++ '"' :: rest) =
      (lex .idle rest).map
        (.text (String.ofList (reversed.reverse ++ text.map writtenChar)) :: ·) := by
  induction text generalizing reversed with
  | nil => simp [lex]
  | cons char text ih =>
    rw [List.flatMap_cons, List.append_assoc, lex_escapeChar, ih]
    simp

theorem parseFirstAtom_quoted {opening closing text : String} {unquoted : List Char}
    {before after left : List Token} {atom : Datalog.Atom}
    (opens : lexSteps .idle opening.toList = (before, .text []))
    (quote : closing.toList = '"' :: unquoted) (closes : lex .idle unquoted = some after)
    (reads : readAtom (before ++ .text (written text) :: after) = some (atom, left)) :
    parseFirstAtom (opening ++ escapeDatalog text ++ closing) = .ok atom := by
  have escaped : (escapeDatalog text).toList = text.toList.flatMap escapeChar := by
    simp [escapeDatalog, escapeString]
  have lexed : tokens (opening ++ escapeDatalog text ++ closing).toList =
      some (before ++ .text (written text) :: after) := by
    rw [tokens, String.toList_append, String.toList_append, escaped, quote, List.append_assoc,
      lex_append, opens, lex_escaped, closes]
    rfl
  rw [parseFirstAtom, lexed, Option.bind_some, reads]

theorem lex_capability : lex .idle ", Capability).".toList =
    some [.mark ',', .word "Capability", .mark ')', .mark '.'] := by decide +kernel

variable (agentID : String)

theorem parseFirstAtom_role :
    parseFirstAtom (AgentSystem.roleQuery agentID) = .ok (roleAtom agentID) := by
  have opens : lexSteps .idle "agent(\"".toList = ([.word "agent", .mark '('], .text []) := by
    decide +kernel
  have closes : lex .idle ", Role).".toList =
      some [.mark ',', .word "Role", .mark ')', .mark '.'] := by decide +kernel
  exact parseFirstAtom_quoted opens (by decide +kernel) closes rfl

theorem parseFirstAtom_capability :
    parseFirstAtom (AgentSystem.capabilityQuery agentID) = .ok (capabilityAtom agentID) := by
  have opens : lexSteps .idle "agent_capability(\"".toList =
      ([.word "agent_capability", .mark '('], .text []) := by decide +kernel
  exact parseFirstAtom_quoted opens (by decide +kernel) lex_capability rfl

theorem parseFirstAtom_config :
    parseFirstAtom (AgentSystem.configQuery agentID) = .ok (configAtom agentID) := by
  have opens : lexSteps .idle "agent_config(\"".toList =
      ([.word "agent_config", .mark '('], .text []) := by decide +kernel
  have closes : lex .idle ", Key, Value).".toList =
      some [.mark ',', .word "Key", .mark ',', .word "Value", .mark ')', .mark '.'] := by
    decide +kernel
  exact parseFirstAtom_quoted opens (by decide +kernel) closes rfl

theorem parseFirstAtom_task (task : String) :
    parseFirstAtom (AgentSystem.taskQuery task) = .ok agentAtom := by
  have opens : lexSteps .idle
      ("\n\t\tagent(AgentID, _),\n\t\tagent_capability(AgentID, Capability),"
        ++ "\n\t\tagent_status(AgentID, \"available\"),\n\t\ttask_requires_capability(\"").toList =
      ([.word "agent", .mark '(', .word "AgentID", .mark ',', .word "_", .mark ')', .mark ',',
        .word "agent_capability", .mark '(', .word "AgentID", .mark ',', .word "Capability",
        .mark ')', .mark ',', .word "agent_status", .mark '(', .word "AgentID", .mark ',',
        .text "available", .mark ')', .mark ',', .word "task_requires_capability",
        .mark '('], .text []) := by decide +kernel
  exact parseFirstAtom_quoted opens (by decide +kernel) lex_capability rfl

theorem readsFirstAtom : ReadsFirstAtom parseFirstAtom :=
  ⟨parseFirstAtom_task, parseFirstAtom_role, parseFirstAtom_capability, parseFirstAtom_config⟩

end Parser

/-! ## Concrete registries -/

section Concrete

/-- A part of the agent registry that is shipped with the source. -/
def executorFacts : List Datalog.Atom :=
  [⟨"agent", [stringTerm "executor-001", stringTerm "executor"]⟩,
    ⟨"agent_capability", [stringTerm "executor-001", stringTerm "llm_generation"]⟩,
    ⟨"agent_status", [stringTerm "executor-001", stringTerm "available"]⟩,
    ⟨"task_requires_capability", [stringTerm "generate_document", stringTerm "llm_generation"]⟩]

def plannerFacts : List Datalog.Atom :=
  [⟨"agent", [stringTerm "planner-001", stringTerm "planner"]⟩,
    ⟨"agent_capability", [stringTerm "planner-001", stringTerm "llm_reasoning"]⟩,
    ⟨"agent_status", [stringTerm "planner-001", stringTerm "available"]⟩]

def agentSystem (facts : List Datalog.Atom) : AgentSystem where
  parseAtom := parseFirstAtom
  store := Store.empty.addAll facts
  keyed := by simp

/-- A node that generates a document with the first agent found. -/
def documentNode : WorkflowNode := ⟨"generate", "agent", "generate_document", ∅⟩

def echoExecutor : WorkflowExecutor where
  maxRetries := 3
  execute _ _ input _ := .ok input
  interrupted _ := none

theorem ranOn_echoExecutor {system : AgentSystem} {agents : List Agent}
    (found : (system.findAgentsForTask documentNode.agent).1.toOption = some agents) :
    (echoExecutor.executeNode system documentNode .nil).1.ranOn = agents.take 1 := by
  unfold WorkflowExecutor.executeNode
  generalize system.findAgentsForTask documentNode.agent = answer at found ⊢
  obtain ⟨err | (_ | ⟨agent, others⟩), after⟩ := answer
  · cases found
  · cases found
    rfl
  · cases found
    rfl

/-- The planner cannot generate documents, and the node runs on it. -/
theorem document_generated_by_planner :
    let system := agentSystem (plannerFacts ++ executorFacts)
    ¬ Eligible system.store "generate_document" "planner-001" ∧
      (system.findAgentsForTask "generate_document").1.toOption.map (·.map (·.id)) =
        some ["planner-001", "executor-001"] ∧
      (echoExecutor.executeNode system documentNode .nil).1.ranOn.map (·.id) =
        ["planner-001"] := by
  intro system
  have selected : (system.findAgentsForTask "generate_document").1.toOption.map (·.map (·.id)) =
      some ["planner-001", "executor-001"] := by decide +kernel
  refine ⟨?_, selected, ?_⟩
  · rintro ⟨term, role, capability, printed, -, capable, -, required⟩
    have generation : capability = stringTerm "llm_generation" := by
      simpa [system, agentSystem, Store.mem_addAll, plannerFacts, executorFacts] using required
    subst generation
    have executor : term = stringTerm "executor-001" := by
      simpa [system, agentSystem, Store.mem_addAll, plannerFacts, executorFacts, stringTerm]
        using capable
    subst executor
    exact absurd (Except.ok.inj printed) (by decide)
  · obtain ⟨agents, found, named⟩ := Option.map_eq_some_iff.mp selected
    rw [ranOn_echoExecutor found, List.map_take, named]
    rfl

theorem readable_executorFacts {queryAtom : Datalog.Atom}
    (known : ∀ fact ∈ executorFacts, fact.predicate = queryAtom.predicate →
      Convertible queryAtom.args fact.args) :
    Readable (agentSystem executorFacts).store queryAtom := by
  intro fact visited
  obtain ⟨stored, same⟩ := Store.mem_getFacts.mp visited
  refine known fact ?_ same
  simpa [agentSystem, Store.mem_addAll] using stored

/-- The only agent can do what the task requires. -/
theorem document_generated_by_executor :
    SelectsEligible (agentSystem executorFacts) "generate_document" := by
  have readable : Readable (agentSystem executorFacts).store agentAtom := by
    refine readable_executorFacts ?_
    simp [executorFacts, agentAtom, Datalog.Atom.predicate, Convertible, Printable,
      constantToString, stringTerm]
  refine (selects_eligible_iff readsFirstAtom "generate_document").mpr
    ⟨fun _ term role stored => ?_, fun unread => absurd readable unread⟩
  obtain ⟨rfl, rfl⟩ : term = stringTerm "executor-001" ∧ role = stringTerm "executor" := by
    simpa [agentSystem, Store.mem_addAll, executorFacts] using stored
  refine iff_of_true (.inr ⟨?_, ?_, ?_, by decide +kernel⟩) ?_
  · refine readable_executorFacts ?_
    simp [executorFacts, roleAtom, Datalog.Atom.predicate, Convertible, Printable,
      constantToString, stringTerm]
  · refine readable_executorFacts ?_
    simp [executorFacts, capabilityAtom, Datalog.Atom.predicate, Convertible, Printable,
      constantToString, stringTerm]
  · refine readable_executorFacts ?_
    simp [executorFacts, configAtom, Datalog.Atom.predicate]
  · exact ⟨stringTerm "executor-001", stringTerm "executor", stringTerm "llm_generation", rfl,
      by decide +kernel, by decide +kernel, by decide +kernel, by decide +kernel⟩

end Concrete

end Manglekit.Multiagent
