import AgentGraph.Domain.TeamGraphDag
import AgentGraph.Manager.AgentRows

/-! # The references of the team graphs

A graph is stored only after it has been parsed and its own agent has been ruled out. That
the agents it names exist is checked before the transaction of an update, and before that
of a deletion. References stay sound as long as what these checks have found still holds at
the commit: nothing that bears on it is committed in between, and the scan of a deletion
can parse every graph that names its agent.
-/
set_option autoImplicit false
namespace AgentGraph.Agents
open Transition Database.Outline
open Database hiding Effect Ctl Label step Run

abbrev AgentsState := Database.State AgentDb AgentProcess AgentCall AgentPc AgentResult

/-- The graph names the agent, under some limit. -/
def Names (parseUuid : String → Option AgentId) (graph : JsonObject) (a : AgentId) : Prop :=
  ∃ (maxWorkers : MaxWorkers) (team : TeamGraph), parseTeamGraph parseUuid maxWorkers.value graph = .ok team ∧
    ∃ node ∈ team.nodes, node.agentId = a

/-- The graph was accepted, and does not name its own agent. -/
def Accepted (parseUuid : String → Option AgentId) (row : AgentRow) : Prop :=
  isTeam row.graphDefinition = true → ∃ (maxWorkers : MaxWorkers) (team : TeamGraph),
    parseTeamGraph parseUuid maxWorkers.value row.graphDefinition = .ok team ∧ ∀ node ∈ team.nodes, node.agentId ≠ row.id

/-- It names agents that exist. -/
def Resolves (parseUuid : String → Option AgentId) (db : AgentDb) (row : AgentRow) : Prop :=
  isTeam row.graphDefinition = true → ∃ (maxWorkers : MaxWorkers) (team : TeamGraph),
    parseTeamGraph parseUuid maxWorkers.value row.graphDefinition = .ok team ∧
      ∀ node ∈ team.nodes, node.agentId ≠ row.id ∧ ∃ other ∈ db, other.id = node.agentId

def AllAccepted (parseUuid : String → Option AgentId) (db : AgentDb) : Prop := ∀ row ∈ db, Accepted parseUuid row

def Sound (parseUuid : String → Option AgentId) (db : AgentDb) : Prop := ∀ row ∈ db, Resolves parseUuid db row

section Graphs
variable {parseUuid : String → Option AgentId} {db : AgentDb} {row : AgentRow} {graph : JsonObject} {a b : AgentId}

theorem isTeam_of_parse {maxWorkers : ℕ} {team : TeamGraph} (h : parseTeamGraph parseUuid maxWorkers graph = .ok team) :
    isTeam graph = true := by
  simp only [parseTeamGraph, except_bind_eq_ok, check_eq_ok] at h
  obtain ⟨_,_,_,hteam,-⟩ := h
  simp only [isTeamV1, Bool.and_eq_true, JsonObject.get] at hteam
  unfold isTeam JsonObject.getD
  cases hlookup : List.lookup "runtime" graph with
  | none =>
    rw [hlookup] at hteam
    cases hteam.2
  | some value =>
    rw [hlookup] at hteam
    exact hteam.2

theorem resolves_iff : Resolves parseUuid db row ↔
    Accepted parseUuid row ∧ ∀ b, Names parseUuid row.graphDefinition b → ∃ other ∈ db, other.id = b := by
  constructor
  · intro h
    refine ⟨fun hteam => ?_,?_⟩
    · obtain ⟨maxWorkers,team,hparse,hnodes⟩ := h hteam
      exact ⟨maxWorkers,team,hparse,fun node hnode => (hnodes node hnode).1⟩
    · rintro b ⟨_,team,hparse,node,hnode,rfl⟩
      obtain ⟨_,team',hparse',hnodes⟩ := h (isTeam_of_parse hparse)
      obtain rfl := parseTeamGraph_unique hparse hparse'
      exact (hnodes node hnode).2
  · rintro ⟨haccepted,hnames⟩ hteam
    obtain ⟨maxWorkers,team,hparse,hnodes⟩ := haccepted hteam
    exact ⟨maxWorkers,team,hparse,fun node hnode =>
      ⟨hnodes node hnode,hnames _ ⟨maxWorkers,team,hparse,node,hnode,rfl⟩⟩⟩

theorem AgentDb.get_mem (h : db.get a = some row) : row ∈ db ∧ row.id = a :=
  ⟨List.mem_of_find?_eq_some h,by simpa using List.find?_some h⟩

theorem AgentDb.insert_eq {db' : AgentDb} (h : db.insert row = some db') : db' = db ++ [row] := by
  unfold AgentDb.insert at h
  split at h <;> cases h
  rfl

/-! ### What the commits do to the graphs -/

theorem Sound.accepted (h : Sound parseUuid db) : AllAccepted parseUuid db := fun row hrow => (resolves_iff.mp (h row hrow)).1

theorem AllAccepted.append (h : AllAccepted parseUuid db) (hr : Accepted parseUuid row) : AllAccepted parseUuid (db ++ [row]) := by
  intro other hother
  obtain hother | hother := List.mem_append.mp hother
  · exact h other hother
  · rw [List.mem_singleton.mp hother]
    exact hr

theorem AllAccepted.updateGraph (h : AllAccepted parseUuid db) (ha : Accepted parseUuid ⟨a,graph⟩) :
    AllAccepted parseUuid (db.updateGraph a graph) := by
  intro row hrow
  obtain ⟨old,hold,rfl⟩ := List.mem_map.mp hrow
  split
  next hid =>
    subst hid
    exact ha
  · exact h old hold

theorem AllAccepted.delete (h : AllAccepted parseUuid db) : AllAccepted parseUuid (db.delete a) :=
  fun row hrow => h row (List.mem_filter.mp hrow).1

theorem Sound.append (hs : Sound parseUuid db) (hr : Resolves parseUuid (db ++ [row]) row) :
    Sound parseUuid (db ++ [row]) := by
  intro other hother
  obtain hother | hother := List.mem_append.mp hother
  · obtain ⟨haccepted,hnames⟩ := resolves_iff.mp (hs other hother)
    refine resolves_iff.mpr ⟨haccepted,fun b hb => ?_⟩
    obtain ⟨named,hmem,hid⟩ := hnames b hb
    exact ⟨named,List.mem_append_left _ hmem,hid⟩
  · rw [List.mem_singleton.mp hother]
    exact hr

theorem exists_updateGraph : (∃ row ∈ db.updateGraph a graph, row.id = b) ↔ ∃ row ∈ db, row.id = b := by
  have hid (row : AgentRow) : (if row.id = a then { row with graphDefinition := graph } else row).id = row.id := by
    split <;> rfl
  constructor
  · rintro ⟨row,hrow,rfl⟩
    obtain ⟨old,hold,rfl⟩ := List.mem_map.mp hrow
    exact ⟨old,hold,(hid old).symm⟩
  · rintro ⟨row,hrow,rfl⟩
    exact ⟨_,List.mem_map_of_mem hrow,hid row⟩

/-- The agents that the graph names, other than those of the nodes to come, exist. -/
def Found (parseUuid : String → Option AgentId) (db : AgentDb) (graph : JsonObject) (rest : List TeamNode) : Prop :=
  ∀ a, Names parseUuid graph a → (∀ node ∈ rest, node.agentId ≠ a) → ∃ row ∈ db, row.id = a

/-- No graph of another agent names the agent. -/
def Unnamed (parseUuid : String → Option AgentId) (db : AgentDb) (a : AgentId) : Prop :=
  ∀ row ∈ db, row.id ≠ a → ¬ Names parseUuid row.graphDefinition a

theorem Sound.updateGraph (hs : Sound parseUuid db) (ha : Accepted parseUuid ⟨a,graph⟩) (hf : Found parseUuid db graph []) :
    Sound parseUuid (db.updateGraph a graph) := by
  intro row hmem
  obtain ⟨old,hold,rfl⟩ := List.mem_map.mp hmem
  split
  next hid =>
    subst hid
    exact resolves_iff.mpr ⟨ha,fun b hb => exists_updateGraph.mpr (hf b hb fun _ hnode => nomatch hnode)⟩
  next hid =>
    obtain ⟨haccepted,hnames⟩ := resolves_iff.mp (hs old hold)
    exact resolves_iff.mpr ⟨haccepted,fun b hb => exists_updateGraph.mpr (hnames b hb)⟩

theorem AgentDb.mem_delete : row ∈ db.delete a ↔ row ∈ db ∧ row.id ≠ a := by
  simp [AgentDb.delete]

theorem Sound.delete (hs : Sound parseUuid db) (hu : Unnamed parseUuid db a) : Sound parseUuid (db.delete a) := by
  intro row hrow
  obtain ⟨hrow,hid⟩ := AgentDb.mem_delete.mp hrow
  obtain ⟨haccepted,hnames⟩ := resolves_iff.mp (hs row hrow)
  refine resolves_iff.mpr ⟨haccepted,fun b hb => ?_⟩
  obtain ⟨other,hother,rfl⟩ := hnames b hb
  refine ⟨other,AgentDb.mem_delete.mpr ⟨hother,?_⟩,rfl⟩
  intro hother
  rw [hother] at hb
  exact hu row hrow hid hb

/-! ### What the commits do to what was found -/

theorem Found.mono {db' : AgentDb} {rest : List TeamNode} (h : Found parseUuid db graph rest)
    (hids : ∀ a, (∃ row ∈ db, row.id = a) → ∃ row ∈ db', row.id = a) : Found parseUuid db' graph rest :=
  fun a hnames hrest => hids a (h a hnames hrest)

/-- A deletion spares what was found unless its agent was. -/
theorem Found.delete {rest : List TeamNode} (h : Found parseUuid db graph rest)
    (ha : ¬ (Names parseUuid graph a ∧ ∀ node ∈ rest, node.agentId ≠ a)) : Found parseUuid (db.delete a) graph rest := by
  intro b hnames hrest
  obtain ⟨row,hrow,rfl⟩ := h b hnames hrest
  refine ⟨row,AgentDb.mem_delete.mpr ⟨hrow,?_⟩,rfl⟩
  rintro rfl
  exact ha ⟨hnames,hrest⟩

theorem Unnamed.append (h : Unnamed parseUuid db a) (hrow : ¬ Names parseUuid row.graphDefinition a) :
    Unnamed parseUuid (db ++ [row]) a := by
  intro other hother hid
  obtain hother | hother := List.mem_append.mp hother
  · exact h other hother hid
  · rw [List.mem_singleton.mp hother]
    exact hrow

theorem Unnamed.updateGraph (h : Unnamed parseUuid db a) (hgraph : ¬ Names parseUuid graph a) :
    Unnamed parseUuid (db.updateGraph b graph) a := by
  intro row hrow hid
  obtain ⟨old,hold,rfl⟩ := List.mem_map.mp hrow
  split at hid
  next heq =>
    rw [if_pos heq]
    exact hgraph
  next hne =>
    rw [if_neg hne]
    exact h old hold hid

theorem Unnamed.delete (h : Unnamed parseUuid db a) : Unnamed parseUuid (db.delete b) a :=
  fun row hrow => h row (AgentDb.mem_delete.mp hrow).1

end Graphs

/-! ## The validation, read after read -/

/-- The nodes that are left once the validation has come to its next read. -/
def remaining : Option (TeamNode × List TeamNode) → List TeamNode
  | none => []
  | some (node,rest) => node :: rest

/-- The graph was accepted, and what has been gone through of it satisfies `P`. -/
def Checked (parseUuid : String → Option AgentId) (graph : JsonObject) (P : TeamNode → Prop) (rest : List TeamNode) : Prop :=
  isTeam graph = true → ∃ (maxWorkers : MaxWorkers) (team : TeamGraph) (before : List TeamNode),
    parseTeamGraph parseUuid maxWorkers.value graph = .ok team ∧ team.nodes = before ++ rest ∧ ∀ node ∈ before, P node

section Validation
variable {parseUuid : String → Option AgentId} {db : AgentDb} {o : AgentProcess} {graph : JsonObject} {a : AgentId}
  {owner held : Option AgentId} {node : TeamNode} {nodes rest : List TeamNode} {next : Option (TeamNode × List TeamNode)}
  {P : TeamNode → Prop}

/-- What `nextNode` passes over is in the session already. -/
theorem nextNode_ok (h : nextNode owner held nodes = .ok next) :
    (∃ skipped, nodes = skipped ++ remaining next ∧ ∀ node ∈ skipped, owner ≠ some node.agentId ∧ held = some node.agentId) ∧
      ∀ node rest, next = some (node,rest) → owner ≠ some node.agentId := by
  induction nodes with
  | nil =>
    obtain rfl := Except.ok.inj h
    exact ⟨⟨[],rfl,fun _ hnode => (by cases hnode)⟩,fun _ _ hnext => (by cases hnext)⟩
  | cons node nodes ih =>
    simp only [nextNode] at h
    split at h
    · cases h
    next howner =>
      split at h
      next hheld =>
        obtain ⟨⟨skipped,hnodes,hskipped⟩,hnext⟩ := ih h
        refine ⟨⟨node :: skipped,by rw [hnodes]; rfl,fun other hother => ?_⟩,hnext⟩
        obtain rfl | hother := List.mem_cons.mp hother
        · exact ⟨howner,hheld⟩
        · exact hskipped other hother
      · obtain rfl := Except.ok.inj h
        refine ⟨⟨[],rfl,fun _ hnode => (by cases hnode)⟩,fun other rest hnext => ?_⟩
        cases hnext
        exact howner

theorem validateTeamGraph_ok (h : validateTeamGraph parseUuid o graph owner = .ok next) :
    Checked parseUuid graph P (remaining next) ∧ ∀ node rest, next = some (node,rest) → owner ≠ some node.agentId := by
  unfold validateTeamGraph at h
  split at h
  · cases h
  next nodes hnodes =>
    obtain ⟨⟨skipped,hsplit,hskipped⟩,hnext⟩ := nextNode_ok h
    refine ⟨fun hteam => ?_,hnext⟩
    simp only [teamNodes, hteam, if_true] at hnodes
    split at hnodes <;> cases hnodes
    next team hparse =>
      refine ⟨o.maxWorkers,team,skipped,hparse,hsplit,fun node hnode => ?_⟩
      -- nothing is held yet
      obtain ⟨-,hheld⟩ := hskipped node hnode
      cases hheld

theorem resumeNode_ok (h : resumeNode db owner node rest = .ok next)
    (hP : ∀ n, owner ≠ some n.agentId → (∃ row ∈ db, row.id = n.agentId) → P n)
    (hc : Checked parseUuid graph P (node :: rest)) (howner : owner ≠ some node.agentId) :
    Checked parseUuid graph P (remaining next) ∧ ∀ node rest, next = some (node,rest) → owner ≠ some node.agentId := by
  unfold resumeNode at h
  split at h
  · cases h
  next row hrow =>
    obtain ⟨hmem,hid⟩ := AgentDb.get_mem hrow
    obtain ⟨⟨skipped,hsplit,hskipped⟩,hnext⟩ := nextNode_ok h
    refine ⟨fun hteam => ?_,hnext⟩
    obtain ⟨maxWorkers,team,before,hparse,hnodes,hbefore⟩ := hc hteam
    refine ⟨maxWorkers,team,before ++ node :: skipped,hparse,?_,fun n hn => ?_⟩
    · rw [hnodes,hsplit]
      simp
    · obtain hn | hn := List.mem_append.mp hn
      · exact hbefore n hn
      · obtain rfl | hn := List.mem_cons.mp hn
        · exact hP _ howner ⟨row,hmem,hid⟩
        · obtain ⟨hown,hheld⟩ := hskipped n hn
          exact hP n hown ⟨row,hmem,hid.trans (Option.some.inj hheld)⟩

/-- The validation starts with all nodes of the graph to come. -/
theorem validateTeamGraph_found (h : validateTeamGraph parseUuid o graph owner = .ok next) :
    Found parseUuid db graph (remaining next) := by
  rintro a ⟨m,team,hparse,node,hnode,rfl⟩ hrest
  unfold validateTeamGraph at h
  split at h
  · cases h
  next nodes hnodes =>
    obtain ⟨⟨skipped,hsplit,hskipped⟩,-⟩ := nextNode_ok h
    simp only [teamNodes, isTeam_of_parse hparse, if_true] at hnodes
    split at hnodes <;> cases hnodes
    next team' hparse' =>
      obtain rfl := parseTeamGraph_unique hparse hparse'
      rw [hsplit] at hnode
      obtain hnode | hnode := List.mem_append.mp hnode
      · obtain ⟨-,hheld⟩ := hskipped node hnode
        cases hheld
      · exact absurd rfl (hrest node hnode)

/-- The node that was read is found, and so are those that are passed over. -/
theorem resumeNode_found (h : resumeNode db owner node rest = .ok next) (hf : Found parseUuid db graph (node :: rest)) :
    Found parseUuid db graph (remaining next) := by
  intro a hnames hrest
  unfold resumeNode at h
  split at h
  · cases h
  next row hrow =>
    obtain ⟨hmem,hid⟩ := AgentDb.get_mem hrow
    obtain ⟨⟨skipped,hsplit,hskipped⟩,-⟩ := nextNode_ok h
    by_cases hread : ∃ other ∈ node :: skipped, other.agentId = a
    · obtain ⟨other,hother,rfl⟩ := hread
      obtain rfl | hother := List.mem_cons.mp hother
      · exact ⟨row,hmem,hid⟩
      · obtain ⟨-,hheld⟩ := hskipped other hother
        exact ⟨row,hmem,hid.trans (Option.some.inj hheld)⟩
    · apply hf a hnames
      intro other hother heq
      rw [hsplit,← List.cons_append] at hother
      obtain hother | hother := List.mem_append.mp hother
      · exact hread ⟨other,hother,heq⟩
      · exact hrest other hother heq

/-- A scan that parses every graph that names the agent, and finds none. -/
theorem unnamed_of_scan {m : MaxWorkers} (h : ¬ teamReferences parseUuid m db a)
    (hparses : ∀ row ∈ db, Names parseUuid row.graphDefinition a →
      ∃ team, parseTeamGraph parseUuid m.value row.graphDefinition = .ok team) : Unnamed parseUuid db a := by
  intro row hrow hid hnames
  obtain ⟨team,hparse⟩ := hparses row hrow hnames
  obtain ⟨_,team',hparse',node,hnode,rfl⟩ := hnames
  obtain rfl := parseTeamGraph_unique hparse hparse'
  apply h
  unfold teamReferences
  refine List.any_eq_true.mpr ⟨row,hrow,?_⟩
  simp only [hparse, Bool.and_eq_true, bne_iff_ne, ne_eq, List.any_eq_true, beq_iff_eq]
  exact ⟨hid,node,hnode,rfl⟩

theorem owner_ne : some a ≠ some node.agentId ↔ node.agentId ≠ a := by
  rw [ne_comm,ne_eq,Option.some.injEq]

theorem Checked.accepted (h : Checked parseUuid graph (fun node => node.agentId ≠ a) []) : Accepted parseUuid ⟨a,graph⟩ := by
  intro hteam
  obtain ⟨maxWorkers,team,before,hparse,hnodes,hbefore⟩ := h hteam
  rw [List.append_nil] at hnodes
  exact ⟨maxWorkers,team,hparse,by rw [hnodes]; exact hbefore⟩

theorem Checked.resolves
    (h : Checked parseUuid graph (fun node => node.agentId ≠ a ∧ ∃ other ∈ db, other.id = node.agentId) []) :
    Resolves parseUuid db ⟨a,graph⟩ := by
  intro hteam
  obtain ⟨maxWorkers,team,before,hparse,hnodes,hbefore⟩ := h hteam
  rw [List.append_nil] at hnodes
  exact ⟨maxWorkers,team,hparse,by rw [hnodes]; exact hbefore⟩

end Validation

/-! ## The outline -/

/-- What a call knows outside its transaction. -/
def AgentPc.Reads (parseUuid : String → Option AgentId) : AgentCall → AgentPc → Prop
  | .updateAgentGraph a graph, .updateCheck node rest =>
    Checked parseUuid graph (fun node => node.agentId ≠ a) (node :: rest) ∧ node.agentId ≠ a
  | .updateAgentGraph a graph, .updateFlush => Accepted parseUuid ⟨a,graph⟩
  | _, .createRecheck _ _ _ | _, .createCommit _ | _, .updateCommit | _, .deleteCommit => False
  | _, _ => True

/-- What it has done in its transaction. -/
def AgentPc.Writes (parseUuid : String → Option AgentId) (db working : AgentDb) : AgentCall → AgentPc → Prop
  | .createAgent graph, .createRecheck record node rest =>
    record.graphDefinition = graph ∧ working = db ++ [record] ∧
      Checked parseUuid graph (fun node => node.agentId ≠ record.id ∧ ∃ other ∈ working, other.id = node.agentId)
        (node :: rest) ∧ node.agentId ≠ record.id
  | .createAgent _, .createCommit record => working = db ++ [record] ∧ Resolves parseUuid working record
  | .updateAgentGraph a graph, .updateCommit =>
    working = db.updateGraph a graph ∧ Accepted parseUuid ⟨a,graph⟩
  | .deleteAgent a, .deleteCommit => working = db.delete a
  | _, _ => False

def agentsOutline (parseUuid : String → Option AgentId) :
    Database.Outline AgentDb AgentProcess AgentCall AgentPc AgentResult where
  world := fun _ db => AllAccepted parseUuid db
  rely := fun _ _ _ _ => True
  reading := fun _ q _ _ pc => pc.Reads parseUuid q
  writing := fun _ q _ db working pc => pc.Writes parseUuid db working q
  ended := fun _ _ _ _ _ => True

section Outline
variable {parseUuid : String → Option AgentId} {db working view : AgentDb} {o o' : AgentProcess} {q : AgentCall} {pc : AgentPc}
  {draw : AgentDraw} {graph : JsonObject} {a : AgentId} {i : ℕ} {keep : AgentPc → Prop} {e : AgentEffect}

theorem meets_goto (hw : AllAccepted parseUuid db) (h : keep pc) :
    (agentsOutline parseUuid).Meets i q o db view keep (AgentEffect.goto pc o') := Meets.goto hw trivial h

theorem meets_end {result : AgentResult} {action : Database.Action AgentDb} (hw : AllAccepted parseUuid db)
    (h : action ≠ .commit) : (agentsOutline parseUuid).Meets i q o db view keep ⟨.done result,action,o'⟩ :=
  Meets.finish h hw trivial trivial

theorem meets_commit (hw : AllAccepted parseUuid view) (h : pc.Reads parseUuid q) :
    (agentsOutline parseUuid).Meets i q o db view keep (AgentEffect.commit pc o') := Meets.release (.inl rfl) hw trivial h

/-- The statements of `create_agent` before its transaction. -/
theorem createRead_meets (hw : AllAccepted parseUuid db) (h : pc.Reads parseUuid (.createAgent graph))
    (he : resumeCreate parseUuid o db draw graph pc = some e) :
    (agentsOutline parseUuid).Meets i (.createAgent graph) o db db (AgentPc.Reads parseUuid (.createAgent graph)) e := by
  cases pc <;> simp only [resumeCreate, reduceCtorEq] at he
  case createCheck node rest =>
    split at he <;> cases he
    · exact meets_end hw (by simp)
    · exact meets_goto hw trivial
    · exact meets_goto hw trivial
  case createInsert =>
    split at he
    · cases he
      exact meets_end hw (by simp)
    next db' hinsert =>
      have hdb := AgentDb.insert_eq hinsert
      split at he <;> cases he
      · exact meets_end hw (by simp)
      next hv =>
        obtain ⟨hchecked,-⟩ := validateTeamGraph_ok hv
        exact Meets.write hw trivial ⟨hdb,hchecked.resolves⟩
      next node rest hv =>
        obtain ⟨hchecked,hnext⟩ := validateTeamGraph_ok hv
        exact Meets.write hw trivial ⟨rfl,hdb,hchecked,owner_ne.mp (hnext node rest rfl)⟩
  case createRecheck record node rest => exact h.elim
  case createCommit record => exact h.elim
  case createRefresh record =>
    split at he <;> cases he <;> exact meets_end hw (by simp)

/-- The statements of `create_agent` in its transaction. -/
theorem createWrite_meets (hw : AllAccepted parseUuid db) (h : pc.Writes parseUuid db working (.createAgent graph))
    (he : resumeCreate parseUuid o working draw graph pc = some e) :
    (agentsOutline parseUuid).Meets i (.createAgent graph) o db working
      (AgentPc.Writes parseUuid db working (.createAgent graph)) e := by
  cases pc <;> simp only [resumeCreate, reduceCtorEq] at he
  case createRecheck record node rest =>
    obtain ⟨hgraph,hworking,hchecked,hnode⟩ := h
    split at he
    · cases he
      exact meets_end hw (by simp)
    next hr =>
      cases he
      obtain ⟨hchecked,-⟩ := resumeNode_ok hr (fun _ hn hrow => ⟨owner_ne.mp hn,hrow⟩) hchecked (owner_ne.mpr hnode)
      refine meets_goto hw ⟨hworking,?_⟩
      rw [← hgraph] at hchecked
      exact hchecked.resolves
    next node' rest' hr =>
      cases he
      obtain ⟨hchecked,hnext⟩ := resumeNode_ok hr (fun _ hn hrow => ⟨owner_ne.mp hn,hrow⟩) hchecked (owner_ne.mpr hnode)
      exact meets_goto hw ⟨hgraph,hworking,hchecked,owner_ne.mp (hnext node' rest' rfl)⟩
  case createCommit record =>
    cases he
    obtain ⟨rfl,hresolves⟩ := h
    exact meets_commit (hw.append (resolves_iff.mp hresolves).1) trivial
  all_goals exact h.elim

theorem updateRead_meets (hw : AllAccepted parseUuid db) (h : pc.Reads parseUuid (.updateAgentGraph a graph))
    (he : resumeUpdate parseUuid o db a graph pc = some e) :
    (agentsOutline parseUuid).Meets i (.updateAgentGraph a graph) o db db
      (AgentPc.Reads parseUuid (.updateAgentGraph a graph)) e := by
  cases pc <;> simp only [resumeUpdate, reduceCtorEq] at he
  case updateLock =>
    split at he <;> cases he
    exact meets_goto hw trivial
  case updateGet =>
    split at he
    · cases he
      exact meets_end hw (by simp)
    · split at he <;> cases he
      · exact meets_end hw (by simp)
      next hv =>
        obtain ⟨hchecked,-⟩ := validateTeamGraph_ok hv
        exact meets_goto hw hchecked.accepted
      next node rest hv =>
        obtain ⟨hchecked,hnext⟩ := validateTeamGraph_ok hv
        exact meets_goto hw ⟨hchecked,owner_ne.mp (hnext node rest rfl)⟩
  case updateCheck node rest =>
    obtain ⟨hchecked,hnode⟩ := h
    split at he <;> cases he
    · exact meets_end hw (by simp)
    next hr =>
      obtain ⟨hchecked,-⟩ := resumeNode_ok hr (fun _ hn _ => owner_ne.mp hn) hchecked (owner_ne.mpr hnode)
      exact meets_goto hw hchecked.accepted
    next node' rest' hr =>
      obtain ⟨hchecked,hnext⟩ := resumeNode_ok hr (fun _ hn _ => owner_ne.mp hn) hchecked (owner_ne.mpr hnode)
      exact meets_goto hw ⟨hchecked,owner_ne.mp (hnext node' rest' rfl)⟩
  case updateFlush =>
    split at he <;> cases he
    · exact meets_end hw (by simp)
    · exact Meets.write hw trivial ⟨rfl,h⟩
  case updateCommit => exact h.elim
  case updateRefresh =>
    split at he <;> cases he <;> exact meets_end hw (by simp)

theorem deleteRead_meets (hw : AllAccepted parseUuid db) (h : pc.Reads parseUuid (.deleteAgent a))
    (he : resumeDelete parseUuid o db draw a pc = some e) :
    (agentsOutline parseUuid).Meets i (.deleteAgent a) o db db (AgentPc.Reads parseUuid (.deleteAgent a)) e := by
  cases pc <;> simp only [resumeDelete, reduceCtorEq] at he
  case deleteLock =>
    split at he <;> cases he
    exact meets_goto hw trivial
  case deleteGet =>
    split at he <;> cases he
    · exact meets_end hw (by simp)
    · exact meets_goto hw trivial
  case deleteActive =>
    split at he <;> cases he
    · exact meets_end hw (by simp)
    · exact meets_goto hw trivial
  case deleteList =>
    split at he <;> cases he
    · exact meets_end hw (by simp)
    · exact meets_goto hw trivial
  case deleteFlush =>
    cases he
    exact Meets.write hw trivial rfl
  case deleteCommit => exact h.elim
  case deleteClose =>
    cases he
    exact meets_end hw (by simp)

theorem agents_valid (parseUuid : String → Option AgentId) : (agentsOutline parseUuid).Valid (agents parseUuid) where
  reading_stable := fun _ _ _ _ _ _ _ _ h => h
  writing_stable := fun _ _ _ _ _ _ _ _ h => h
  ended_stable := fun _ _ _ _ _ _ _ _ _ => trivial
  begin := by
    rintro i q o db -
    refine ⟨fun pc hpc => ?_,fun _ _ => trivial⟩
    cases q with
    | createAgent graph =>
      simp only [agents, AgentCall.begin] at hpc
      split at hpc <;> cases hpc <;> exact trivial
    | updateAgentGraph a graph =>
      cases hpc
      exact trivial
    | deleteAgent a =>
      cases hpc
      exact trivial
  read := by
    intro i q o db pc draw e hw h he
    cases q with
    | createAgent graph => exact createRead_meets hw h he
    | updateAgentGraph a graph => exact updateRead_meets hw h he
    | deleteAgent a => exact deleteRead_meets hw h he
  write := by
    intro i q o db working pc draw e hw h he
    cases q with
    | createAgent graph => exact createWrite_meets hw h he
    | updateAgentGraph a graph =>
      cases pc with
      | updateCommit =>
        cases he
        obtain ⟨rfl,haccepted⟩ := h
        exact meets_commit (hw.updateGraph haccepted) trivial
      | _ => exact h.elim
    | deleteAgent a =>
      cases pc with
      | deleteCommit =>
        cases he
        obtain rfl : working = db.delete a := h
        exact meets_commit hw.delete trivial
      | _ => exact h.elim
  abandon := fun _ _ _ _ _ hw _ => meets_end hw (by simp)
  restart := fun _ _ _ hw => hw

end Outline

/-! ## What a call relies on between its check and its commit -/

def AgentPc.Relies (parseUuid : String → Option AgentId) (db : AgentDb) : AgentCall → AgentPc → Prop
  | .updateAgentGraph _ graph, .updateCheck node rest => Found parseUuid db graph (node :: rest)
  | .updateAgentGraph _ graph, .updateFlush | .updateAgentGraph _ graph, .updateCommit => Found parseUuid db graph []
  | .deleteAgent a, .deleteFlush | .deleteAgent a, .deleteCommit => Unnamed parseUuid db a
  | _, _ => True

def Relied (parseUuid : String → Option AgentId) (s : AgentsState) : Prop :=
  ∀ i q pc, s.tasks i = some (q,.at pc) → pc.Relies parseUuid s.db q

/-- An update that has found the agent, and goes on to store a graph that names it. -/
def AgentPc.HasFound (parseUuid : String → Option AgentId) (a : AgentId) : AgentCall → AgentPc → Prop
  | .updateAgentGraph _ graph, .updateCheck node rest => Names parseUuid graph a ∧ ∀ other ∈ node :: rest, other.agentId ≠ a
  | .updateAgentGraph _ graph, .updateFlush | .updateAgentGraph _ graph, .updateCommit => Names parseUuid graph a
  | _, _ => False

/-- A deletion of the agent between its scan of the graphs and its commit. -/
def AgentPc.HasScanned (a : AgentId) : AgentCall → AgentPc → Prop
  | .deleteAgent b, .deleteFlush | .deleteAgent b, .deleteCommit => b = a
  | _, _ => False

/-- The graph that the statement commits. -/
def AgentPc.stores : AgentCall → AgentPc → Option JsonObject
  | .createAgent _, .createCommit record => some record.graphDefinition
  | .updateAgentGraph _ graph, .updateCommit => some graph
  | _, _ => none

/-- No agent is deleted after an update has found it and before the update commits; no graph that
names an agent is committed after the scan of its deletion and before the deletion commits; and at
its scan a deletion can parse every graph that names its agent. -/
structure KeepsApart (parseUuid : String → Option AgentId) (l : Database.Label AgentCall AgentDraw) (s : AgentsState) :
    Prop where
  deletes : ∀ i draw a, l = .run i draw → s.tasks i = some (.deleteAgent a,.at .deleteCommit) →
    ∀ j q pc, s.tasks j = some (q,.at pc) → ¬ pc.HasFound parseUuid a q
  stores : ∀ i draw q pc graph, l = .run i draw → s.tasks i = some (q,.at pc) → pc.stores q = some graph →
    ∀ j q' pc' a, s.tasks j = some (q',.at pc') → pc'.HasScanned a q' → ¬ Names parseUuid graph a
  scans : ∀ i draw a, l = .run i draw → s.tasks i = some (.deleteAgent a,.at .deleteList) →
    ∀ row ∈ s.db, Names parseUuid row.graphDefinition a →
      ∃ team, parseTeamGraph parseUuid s.outside.maxWorkers.value row.graphDefinition = .ok team

/-- What a statement commits. -/
inductive Commits (parseUuid : String → Option AgentId) (db db' : AgentDb) : AgentCall → AgentPc → Prop
  | unchanged {q : AgentCall} {pc : AgentPc} (same : db' = db) : Commits parseUuid db db' q pc
  | created (graph : JsonObject) (record : AgentRow) (rows : db' = db ++ [record]) (resolves : Resolves parseUuid db' record) :
    Commits parseUuid db db' (.createAgent graph) (.createCommit record)
  | updated (a : AgentId) (graph : JsonObject) (rows : db' = db.updateGraph a graph) (accepted : Accepted parseUuid ⟨a,graph⟩) :
    Commits parseUuid db db' (.updateAgentGraph a graph) .updateCommit
  | deleted (a : AgentId) (rows : db' = db.delete a) : Commits parseUuid db db' (.deleteAgent a) .deleteCommit

section Commits
variable {parseUuid : String → Option AgentId} {db db' working view : AgentDb} {o : AgentProcess} {s t : AgentsState}
  {l : Database.Label AgentCall AgentDraw} {i : ℕ} {q q' : AgentCall} {pc pc' : AgentPc} {e : AgentEffect} {draw : AgentDraw}

theorem Commits.sound (h : Commits parseUuid db db' q pc) (hs : Sound parseUuid db) (hr : pc.Relies parseUuid db q) :
    Sound parseUuid db' := by
  cases h with
  | unchanged same => rwa [same]
  | created graph record rows resolves =>
    rw [rows] at resolves ⊢
    exact hs.append resolves
  | updated a graph rows accepted =>
    rw [rows]
    exact hs.updateGraph accepted hr
  | deleted a rows =>
    rw [rows]
    exact hs.delete hr

theorem resume_commits (hw : pc.Writes parseUuid db working q) (he : q.resume parseUuid o working draw pc = some e) :
    Commits parseUuid db (e.action.published db working) q pc := by
  cases q with
  | createAgent graph =>
    cases pc with
    | createRecheck record node rest =>
      -- the validation goes on, or the call ends
      have hkeep : e.action = .keep := by
        simp only [AgentCall.resume, resumeCreate] at he
        split at he <;> cases he <;> rfl
      rw [hkeep]
      exact .unchanged rfl
    | createCommit record =>
      cases he
      exact .created graph record hw.1 hw.2
    | _ => exact hw.elim
  | updateAgentGraph a graph =>
    cases pc with
    | updateCommit =>
      cases he
      exact .updated a graph hw.1 hw.2
    | _ => exact hw.elim
  | deleteAgent a =>
    cases pc with
    | deleteCommit =>
      cases he
      exact .deleted a hw
    | _ => exact hw.elim

theorem ran_commits (hs : (agentsOutline parseUuid).Holds s) (hran : Ran (agents parseUuid) s l i q pc e t) :
    t.db = s.db ∨ (∃ draw, l = .run i draw) ∧ Commits parseUuid s.db t.db q pc := by
  have hdb := hran.db
  obtain ⟨draw,hl,he⟩ | ⟨-,rfl⟩ := hran.label
  · obtain ⟨-,hview,hwrites⟩ | ⟨-,hview,-⟩ := hs.seen hran.task
    · rw [hview] at he hdb
      rw [hdb]
      exact .inr ⟨⟨draw,hl⟩,resume_commits hwrites he⟩
    · rw [hview,Database.Action.published_self] at hdb
      exact .inl hdb
  · exact .inl hdb

/-- What a call has found is still there after a commit of another call that keeps apart. -/
theorem Commits.relies (h : Commits parseUuid s.db db' q pc) (hapart : KeepsApart parseUuid l s) (hl : l = .run i draw)
    (ht : s.tasks i = some (q,.at pc)) {j : ℕ} (hj : s.tasks j = some (q',.at pc')) (hr : pc'.Relies parseUuid s.db q') :
    pc'.Relies parseUuid db' q' := by
  -- either it has found agents, or it has found no graph that names its own
  have hcases (hfound : ∀ graph rest, Found parseUuid s.db graph rest →
        (∀ a, Names parseUuid graph a → (∀ node ∈ rest, node.agentId ≠ a) → pc'.HasFound parseUuid a q') →
          Found parseUuid db' graph rest)
      (hunnamed : ∀ a, pc'.HasScanned a q' → Unnamed parseUuid s.db a → Unnamed parseUuid db' a) :
      pc'.Relies parseUuid db' q' := by
    cases q' with
    | createAgent => exact trivial
    | updateAgentGraph b graph =>
      cases pc' with
      | updateCheck node rest => exact hfound graph _ hr fun a hnames hrest => ⟨hnames,hrest⟩
      | updateFlush | updateCommit => exact hfound graph _ hr fun a hnames _ => hnames
      | _ => exact trivial
    | deleteAgent b =>
      cases pc' with
      | deleteFlush | deleteCommit => exact hunnamed b rfl hr
      | _ => exact trivial
  cases h with
  | unchanged same => rwa [same]
  | created graph record rows resolves =>
    refine hcases (fun _ _ hfound _ => hfound.mono ?_) fun a hscanned hunnamed => ?_
    · rintro a ⟨row,hrow,hid⟩
      rw [rows]
      exact ⟨row,List.mem_append_left _ hrow,hid⟩
    · rw [rows]
      exact hunnamed.append (hapart.stores i draw _ _ _ hl ht rfl j q' pc' a hj hscanned)
  | updated b graph rows accepted =>
    refine hcases (fun _ _ hfound _ => hfound.mono ?_) fun a hscanned hunnamed => ?_
    · intro a ha
      rw [rows]
      exact exists_updateGraph.mpr ha
    · rw [rows]
      exact hunnamed.updateGraph (hapart.stores i draw _ _ _ hl ht rfl j q' pc' a hj hscanned)
  | deleted b rows =>
    refine hcases (fun _ _ hfound hhas => ?_) fun a _ hunnamed => ?_
    · rw [rows]
      exact hfound.delete fun hb => hapart.deletes i draw b hl ht j q' pc' hj (hhas b hb.1 hb.2)
    · rw [rows]
      exact hunnamed.delete

/-- What a call has found after its own statement. -/
theorem resume_relies (hview : view = db ∨ pc.Writes parseUuid db view q) (hr : pc.Relies parseUuid db q)
    (hscan : ∀ a, q = .deleteAgent a → pc = .deleteList → ∀ row ∈ db, Names parseUuid row.graphDefinition a →
      ∃ team, parseTeamGraph parseUuid o.maxWorkers.value row.graphDefinition = .ok team)
    (he : q.resume parseUuid o view draw pc = some e) (hn : e.next = .at pc') : pc'.Relies parseUuid db q := by
  cases q with
  | createAgent graph => exact trivial
  | updateAgentGraph a graph =>
    cases pc <;> simp only [AgentCall.resume, resumeUpdate, reduceCtorEq] at he
    case updateLock =>
      split at he <;> cases he
      cases hn
      exact trivial
    case updateGet =>
      split at he
      · cases he
        cases hn
      · split at he <;> cases he <;> cases hn
        next hv => exact validateTeamGraph_found hv
        next node rest hv => exact validateTeamGraph_found hv
    case updateCheck node rest =>
      obtain rfl | hwrites := hview
      · split at he <;> cases he <;> cases hn
        next hv => exact resumeNode_found hv hr
        next node' rest' hv => exact resumeNode_found hv hr
      · exact hwrites.elim
    case updateFlush =>
      split at he <;> cases he <;> cases hn
      exact hr
    case updateCommit =>
      cases he
      cases hn
      exact trivial
    case updateRefresh => split at he <;> cases he <;> cases hn
  | deleteAgent a =>
    cases pc <;> simp only [AgentCall.resume, resumeDelete, reduceCtorEq] at he
    case deleteLock =>
      split at he <;> cases he
      cases hn
      exact trivial
    case deleteGet | deleteActive =>
      split at he <;> cases he <;> cases hn
      exact trivial
    case deleteList =>
      obtain rfl | hwrites := hview
      · split at he <;> cases he <;> cases hn
        next hnone => exact unnamed_of_scan hnone (hscan a rfl rfl)
      · exact hwrites.elim
    case deleteFlush =>
      cases he
      cases hn
      exact hr
    case deleteCommit =>
      cases he
      cases hn
      exact trivial
    case deleteClose =>
      cases he
      cases hn

theorem Relied.step (hs : (agentsOutline parseUuid).Holds s) (hr : Relied parseUuid s) (hapart : KeepsApart parseUuid l s)
    (h : Database.step (agents parseUuid) l s = some t) : Relied parseUuid t := by
  intro j q' pc' ht
  cases step_moved h with
  | called q label state =>
    rw [state] at ht ⊢
    obtain ⟨-,hx⟩ | ⟨-,ht⟩ := update_cases ht
    · obtain ⟨rfl,hbegin⟩ := Prod.mk.inj hx
      cases q' with
      | createAgent => exact trivial
      | updateAgentGraph | deleteAgent =>
        cases hbegin
        exact trivial
    · exact hr j q' pc' ht
  | restarted draw label state =>
    rw [state] at ht
    cases ht
  | ran i q pc e hran =>
    obtain ⟨rfl,hx⟩ | ⟨hne,hj⟩ := hran.task_cases ht
    · obtain ⟨rfl,hn⟩ := Prod.mk.inj hx
      obtain ⟨draw,hl,he⟩ | ⟨-,rfl⟩ := hran.label
      · have hview : s.view j = s.db ∨ pc.Writes parseUuid s.db (s.view j) q' := by
          obtain ⟨-,hview,hwrites⟩ | ⟨-,hview,-⟩ := hs.seen hran.task
          · rw [hview]
            exact .inr hwrites
          · exact .inl hview
        have hown := resume_relies hview (hr j q' pc hran.task)
          (fun a hq hpc => hapart.scans j draw a hl (by rw [hran.task,hq,hpc])) he hn.symm
        obtain hsame | ⟨-,hcommits⟩ := ran_commits hs hran
        · rwa [hsame]
        · -- after its commit a call relies on nothing
          cases hcommits with
          | unchanged same => rwa [same]
          | created | updated | deleted =>
            cases he
            cases hn
            exact trivial
      · cases hn
    · have hold := hr j q' pc' hj
      obtain hsame | ⟨⟨draw,hl⟩,hcommits⟩ := ran_commits hs hran
      · rwa [hsame]
      · exact hcommits.relies hapart hl hran.task hj hold

theorem step_sound (hs : (agentsOutline parseUuid).Holds s) (hp : Sound parseUuid s.db) (hr : Relied parseUuid s)
    (h : Database.step (agents parseUuid) l s = some t) : Sound parseUuid t.db := by
  cases step_moved h with
  | called q label state => rwa [state]
  | restarted draw label state => rwa [state]
  | ran i q pc e hran =>
    obtain hsame | ⟨-,hcommits⟩ := ran_commits hs hran
    · rwa [hsame]
    · exact hcommits.sound hp (hr i q pc hran.task)

/-- In every execution whose checks and commits keep apart, the references of the stored team graphs
are sound throughout. That they were accepted and do not name their own agents holds in any case. -/
theorem references_sound (parseUuid : String → Option AgentId) {db : AgentDb} (hp : Sound parseUuid db)
    {o : AgentProcess} {ls : List (Database.Label AgentCall AgentDraw)}
    (h : exec (Database.step (agents parseUuid)) ls (Database.State.initial db o) = some t) :
    (ExecOk (Database.step (agents parseUuid)) (KeepsApart parseUuid) ls (Database.State.initial db o) →
      ExecAll (Database.step (agents parseUuid)) (fun s => Sound parseUuid s.db) ls (Database.State.initial db o)) ∧
    ∀ row ∈ t.db, Accepted parseUuid row := by
  have hinit : (agentsOutline parseUuid).Holds (Database.State.initial db o) := initial_holds hp.accepted
  have hvalid := agents_valid parseUuid
  refine ⟨fun hok => ?_,?_⟩
  · refine hok.all (I := fun s => (agentsOutline parseUuid).Holds s ∧ Sound parseUuid s.db ∧ Relied parseUuid s)
      (fun l s t hs hl hstep => ?_) (fun s hs => hs.2.1) ⟨hinit,hp,fun _ _ _ ht => nomatch ht⟩
    obtain ⟨hs,hsound,hrelied⟩ := hs
    exact ⟨hs.step hvalid hstep,step_sound hs hsound hrelied hstep,hrelied.step hs hl hstep⟩
  · exact (hinit.run hvalid (exec_reaches (execOk_anyStep ls _) h)).world

end Commits

/-! ## A deletion under a smaller limit -/

def workerText : String := "00000000-0000-0000-0000-000000000001"

def parseWorker (text : String) : Option AgentId := if text = workerText then some 1 else none

def workerNode (id : String) : Json :=
  .obj [("id",.str id),("type",.str "agent-ref"),("label",.str id),("agent_id",.str workerText)]

def pairGraph : JsonObject :=
  [("version",.int 2),("runtime",.str "team-v1"),("nodes",.arr [workerNode "left",workerNode "right"]),("edges",.arr [])]

def oneWorker : MaxWorkers := ⟨1,by decide,by decide⟩

def twoWorkers : MaxWorkers := ⟨2,by decide,by decide⟩

/-- An agent, a team of two workers that both name it, a restart with a limit of one
worker, and the deletion of the agent. -/
def smallerLimitTrace : List (Database.Label AgentCall AgentDraw) :=
  .call (.createAgent []) :: List.replicate 3 (.run 0 ⟨1,false,twoWorkers⟩) ++
    .call (.createAgent pairGraph) :: List.replicate 5 (.run 1 ⟨2,false,twoWorkers⟩) ++
    .restart ⟨0,false,oneWorker⟩ :: .call (.deleteAgent 1) :: List.replicate 7 (.run 2 ⟨0,false,oneWorker⟩)

def noAgents : AgentsState := Database.State.initial [] ⟨twoWorkers,fun _ => false⟩

def smallerLimit : AgentsState :=
  after (Database.step (agents parseWorker)) smallerLimitTrace noAgents (by decide)

theorem smallerLimit_db : smallerLimit.db = [⟨2,pairGraph⟩] := rfl

theorem smallerLimit_unsound : ¬ Sound parseWorker smallerLimit.db := by
  rw [smallerLimit_db]
  intro h
  obtain ⟨-,hnames⟩ := resolves_iff.mp (h _ (List.mem_singleton_self _))
  obtain ⟨other,hother,hid⟩ := hnames 1
    ⟨twoWorkers,⟨[⟨"left","left",1,none⟩,⟨"right","right",1,none⟩],[]⟩,rfl,_,List.mem_cons_self,rfl⟩
  rw [List.mem_singleton.mp hother] at hid
  cases hid

/-- A restart with a smaller limit lets the named agent be deleted, with no two calls at
the same time. -/
theorem smaller_limit_dangles :
    Database.Run (agents parseWorker) anyStep noAgents smallerLimit ∧ ¬ Sound parseWorker smallerLimit.db :=
  ⟨after_reaches _ _ (execOk_anyStep _ _),smallerLimit_unsound⟩

/-! ## A reference that is given up before its agent is deleted -/

/-- An update after its reads began and before its commit. -/
def AgentPc.updating : AgentPc → Bool
  | .updateCheck _ _ | .updateFlush | .updateCommit => true
  | _ => false

/-- A deletion after its scan and before its commit. -/
def AgentPc.deleting : AgentPc → Bool
  | .deleteFlush | .deleteCommit => true
  | _ => false

def noneAt (busy : AgentPc → Bool) (s : AgentsState) : Bool :=
  (List.range s.count).all fun j =>
    match s.tasks j with
    | some (_,.at pc) => !busy pc
    | _ => true

/-- No two calls are in each other's way, whatever their graphs name, and a scan parses every team graph. -/
def undisturbed (parseUuid : String → Option AgentId) (l : Database.Label AgentCall AgentDraw) (s : AgentsState) : Bool :=
  match l with
  | .run i _ =>
    match s.tasks i with
    | some (_,.at .deleteCommit) => noneAt AgentPc.updating s
    | some (_,.at (.createCommit _)) | some (_,.at .updateCommit) => noneAt AgentPc.deleting s
    | some (_,.at .deleteList) => s.db.all fun row => !isTeam row.graphDefinition ||
        (parseTeamGraph parseUuid s.outside.maxWorkers.value row.graphDefinition).isOk
    | _ => true
  | _ => true

section Undisturbed
variable {parseUuid : String → Option AgentId} {busy : AgentPc → Bool} {s : AgentsState}
  {l : Database.Label AgentCall AgentDraw}

theorem not_busy (hs : (agentsOutline parseUuid).Holds s) (h : noneAt busy s = true) {j : ℕ} {q : AgentCall} {pc : AgentPc}
    (hj : s.tasks j = some (q,.at pc)) : busy pc = false := by
  have hlt : j < s.count := by
    rw [← Nat.not_le]
    intro hle
    rw [hs.fresh j hle] at hj
    cases hj
  have hbusy := List.all_eq_true.mp h j (List.mem_range.mpr hlt)
  simpa [hj] using hbusy

theorem keepsApart_of_undisturbed (hs : (agentsOutline parseUuid).Holds s) (h : undisturbed parseUuid l s = true) :
    KeepsApart parseUuid l s where
  deletes := by
    rintro i draw a rfl ht j q pc hj hfound
    simp only [undisturbed, ht] at h
    have hbusy := not_busy hs h hj
    cases q with
    | updateAgentGraph b graph =>
      cases pc with
      | updateCheck | updateFlush | updateCommit => cases hbusy
      | _ => exact hfound
    | createAgent | deleteAgent => exact hfound
  stores := by
    rintro i draw q pc graph rfl ht hstores j q' pc' a hj hscanned
    have hnone : noneAt AgentPc.deleting s = true := by
      cases q with
      | createAgent g =>
        cases pc with
        | createCommit record => simpa only [undisturbed, ht] using h
        | _ => cases hstores
      | updateAgentGraph b g =>
        cases pc with
        | updateCommit => simpa only [undisturbed, ht] using h
        | _ => cases hstores
      | deleteAgent => cases hstores
    have hbusy := not_busy hs hnone hj
    cases q' with
    | deleteAgent b =>
      cases pc' with
      | deleteFlush | deleteCommit => cases hbusy
      | _ => exact hscanned.elim
    | createAgent | updateAgentGraph => exact hscanned.elim
  scans := by
    rintro i draw a rfl ht row hrow ⟨_,team,hparse,-⟩
    simp only [undisturbed, ht] at h
    have hrow := List.all_eq_true.mp h row hrow
    simp only [isTeam_of_parse hparse, Bool.not_true, Bool.false_or] at hrow
    cases hnow : parseTeamGraph parseUuid s.outside.maxWorkers.value row.graphDefinition with
    | ok team => exact ⟨team,rfl⟩
    | error e =>
      rw [hnow] at hrow
      cases hrow

end Undisturbed

/-- A deletion is refused while a team that names the agent is being changed, and goes through after the change. -/
def releasedTrace : List (Database.Label AgentCall AgentDraw) :=
  let draw (n : AgentId) : AgentDraw := ⟨n,false,twoWorkers⟩
  .call (.createAgent []) :: List.replicate 3 (.run 0 (draw 1)) ++
    .call (.createAgent pairGraph) :: List.replicate 5 (.run 1 (draw 2)) ++
    [.call (.deleteAgent 1),.call (.updateAgentGraph 2 []),.run 3 (draw 0)] ++ List.replicate 3 (.run 2 (draw 0)) ++
    [.run 3 (draw 0),.run 2 (draw 0)] ++ List.replicate 3 (.run 3 (draw 0)) ++
    .call (.deleteAgent 1) :: List.replicate 7 (.run 4 (draw 0))

def released : AgentsState := after (Database.step (agents parseWorker)) releasedTrace noAgents (by decide +kernel)

theorem references_sound_released :
    ExecAll (Database.step (agents parseWorker)) (fun s => Sound parseWorker s.db) releasedTrace noAgents ∧
      released.tasks 2 = some (.deleteAgent 1,
        .done (.error (.exc (.lifecycleConflict "A team graph references this agent")))) ∧ released.db = [⟨2,[]⟩] := by
  have he : exec (Database.step (agents parseWorker)) releasedTrace noAgents = some released := exec_after _
  have hundisturbed : ExecOk (Database.step (agents parseWorker)) (fun l s => undisturbed parseWorker l s = true) releasedTrace
      noAgents := by decide +kernel
  have hinit : (agentsOutline parseWorker).Holds noAgents := initial_holds fun row hrow => nomatch hrow
  have hok : ExecOk (Database.step (agents parseWorker)) (KeepsApart parseWorker) releasedTrace noAgents :=
    hundisturbed.imp (I := (agentsOutline parseWorker).Holds) (fun _ _ _ hs ht => hs.step (agents_valid parseWorker) ht)
      (fun _ _ hs hl => keepsApart_of_undisturbed hs hl) hinit
  have hempty : Sound parseWorker [] := fun _ hrow => nomatch hrow
  exact ⟨(references_sound parseWorker hempty he).1 hok,rfl,rfl⟩

end AgentGraph.Agents
