import ClusterLedger.Proofs.Document.History
import ClusterLedger.Proofs.Document.Nodes
import Mathlib.Data.List.Forall2

/-!
# Selecting nodes by their host names

The nodes of a cluster are found by host names that are read by path. A path does not lead to the
record of a module with a dot in its name, and it reads a node without a host name as one whose host
name is empty.
-/
namespace ClusterLedger.Document

variable {d : Document} {cluster module host name : String} {hosts names : List String}

/-! ## The node that is found -/

/-- The host name that is read for a node. -/
def hostAt (d : Document) (name : String) : String :=
  d.getText ("module." ++ name ++ ".hostname")

/-- The first node of a cluster module for which a host name is read. -/
structure Finds (d : Document) (module host name : String) : Prop where
  mem : name ∈ d.nodes module
  reads : d.hostAt name = host
  least : ∀ other ∈ d.nodes module, d.hostAt other = host → name ≤ other

theorem Finds.unique {other : String} (h : d.Finds module host name)
    (hother : d.Finds module host other) : name = other :=
  String.le_antisymm (h.least other hother.mem hother.reads) (hother.least name h.mem h.reads)

theorem finds_of_hostModule? (h : d.hostModule? (d.nodes module) host = some name) :
    d.Finds module host name := by
  obtain ⟨hreads, front, back, hnodes, hfront⟩ := List.find?_eq_some_iff_append.1 h
  have hsorted : (front ++ name :: back).Pairwise (· < ·) := hnodes ▸ d.nodes_sorted module
  have hbehind := (List.pairwise_cons.1 (List.pairwise_append.1 hsorted).2.1).1
  refine ⟨List.mem_of_find?_eq_some h, of_decide_eq_true hreads, ?_⟩
  intro other hother hsame
  rw [hnodes, List.mem_append, List.mem_cons] at hother
  rcases hother with hother | rfl | hother
  · have hdiffers := hfront other hother
    rw [hostAt] at hsame
    simp [hsame] at hdiffers
  · exact String.le_refl _
  · exact String.not_lt.1 (String.lt_asymm (hbehind other hother))

theorem hostModule?_eq_none : d.hostModule? (d.nodes module) host = none ↔
    ∀ name ∈ d.nodes module, d.hostAt name ≠ host := by
  simp [hostModule?, hostAt]

theorem hostModule?_eq_some : d.hostModule? (d.nodes module) host = some name ↔
    d.Finds module host name := by
  constructor
  · exact finds_of_hostModule?
  · intro h
    cases hfind : d.hostModule? (d.nodes module) host with
    | none => exact absurd h.reads (hostModule?_eq_none.1 hfind name h.mem)
    | some other => rw [(finds_of_hostModule? hfind).unique h]

/-! ## What a selection answers -/

theorem selectNodes_eq_ok (hcluster : d.resolveCluster? cluster = some module) :
    d.selectNodes cluster hosts = .ok names ↔ List.Forall₂ (d.Finds module) hosts names := by
  simp only [selectNodes, hcluster, Except.mapM_eq_ok, ← List.forall₂_eq_eq_eq,
    List.forall₂_map_left_iff, List.forall₂_map_right_iff]
  apply iff_of_eq
  congr
  funext host name
  apply propext
  rw [← hostModule?_eq_some]
  cases d.hostModule? (d.nodes module) host <;> simp

theorem mem_nodes_of_selectNodes (h : d.selectNodes cluster hosts = .ok names)
    (hmem : name ∈ names) : ∃ module, name ∈ d.nodes module := by
  cases hcluster : d.resolveCluster? cluster with
  | none =>
    rw [selectNodes, hcluster] at h
    cases h
  | some module =>
    have hfinds := (selectNodes_eq_ok hcluster).1 h
    have hnodes := (hfinds.imp fun _ _ hfound => And.intro hfound.mem trivial).flip
    exact ⟨module, ((List.forall₂_and_left names hosts).1 hnodes).1 name hmem⟩

theorem selectNodes_error {e : Error} (h : d.selectNodes cluster hosts = .error e) :
    d.resolveCluster? cluster = none ∧ e = .missing (.cluster cluster) ∨
    ∃ module, d.resolveCluster? cluster = some module ∧ ∃ host ∈ hosts,
      (∀ name ∈ d.nodes module, d.hostAt name ≠ host) ∧ e = .missing (.node host cluster) := by
  rw [selectNodes] at h
  split at h
  · next hcluster =>
    cases h
    exact .inl ⟨hcluster, rfl⟩
  · next module hcluster =>
    obtain ⟨host, hmem, he⟩ := Except.exists_of_mapM_error h
    cases hfind : d.hostModule? (d.nodes module) host with
    | none =>
      rw [hfind] at he
      cases he
      exact .inr ⟨module, hcluster, host, hmem, hostModule?_eq_none.1 hfind, rfl⟩
    | some name =>
      rw [hfind] at he
      cases he

/-- A selection of nodes succeeds when the cluster is there and its nodes have all of the host
names. Then it has one node for each of them, in their order. -/
structure SelectsNodes (d : Document) (cluster : String) (hosts : List String)
    (answer : Result (List String)) : Prop where
  succeeds : (∃ names, answer = .ok names) ↔
    ∃ module, d.resolveCluster? cluster = some module ∧ ∀ host ∈ hosts, host ∈ d.hostnames module
  picks : ∀ names module, answer = .ok names → d.resolveCluster? cluster = some module →
    List.Forall₂ (fun host name => name ∈ d.nodes module ∧ d.hostname? name = some host) hosts names
  refuses : ∀ e, answer = .error e → ∃ subject, e = .missing subject

/-! ## When reading by path is right -/

/-- The node that is found for a host name has it in its record, and one is found if a node has
it. -/
structure Tells (d : Document) (module host : String) : Prop where
  found : host ∈ d.hostnames module → ∃ name ∈ d.nodes module, d.hostAt name = host
  right : ∀ name, d.Finds module host name → d.hostname? name = some host

theorem mem_hostnames_iff : host ∈ d.hostnames module ↔
    ∃ name ∈ d.nodes module, d.hostname? name = some host := by
  simp [hostnames, Dict.mem_names, hostname?]

theorem selectsNodes_of_tells
    (h : ∀ module, d.resolveCluster? cluster = some module → ∀ host ∈ hosts, d.Tells module host) :
    d.SelectsNodes cluster hosts (d.selectNodes cluster hosts) := by
  have hpicks (names module) (hok : d.selectNodes cluster hosts = .ok names)
      (hcluster : d.resolveCluster? cluster = some module) : List.Forall₂
        (fun host name => name ∈ d.nodes module ∧ d.hostname? name = some host) hosts names := by
    have hfinds := (List.forall₂_and_left hosts names).2
      ⟨h module hcluster, (selectNodes_eq_ok hcluster).1 hok⟩
    exact hfinds.imp fun host name ⟨htells, hfound⟩ => ⟨hfound.mem, htells.right name hfound⟩
  constructor
  case succeeds =>
    constructor
    · rintro ⟨names, hok⟩
      cases hcluster : d.resolveCluster? cluster with
      | none =>
        rw [selectNodes, hcluster] at hok
        cases hok
      | some module =>
        have htaken := (hpicks names module hok hcluster).imp
          fun host name hpick => And.intro (mem_hostnames_iff.2 ⟨name, hpick⟩) hpick
        exact ⟨module, rfl, ((List.forall₂_and_left hosts names).1 htaken).1⟩
    · rintro ⟨module, hcluster, hall⟩
      cases hselect : d.selectNodes cluster hosts with
      | ok names => exact ⟨names, rfl⟩
      | error e =>
        rcases selectNodes_error hselect with ⟨hnone, -⟩ | ⟨other, hother, host, hmem, hmissing, -⟩
        · rw [hcluster] at hnone
          cases hnone
        · rw [hcluster] at hother
          cases hother
          obtain ⟨name, hname, hreads⟩ := (h module hcluster host hmem).found (hall host hmem)
          exact absurd hreads (hmissing name hname)
  case picks => exact hpicks
  case refuses =>
    intro e he
    rcases selectNodes_error he with ⟨-, rfl⟩ | ⟨-, -, host, -, -, rfl⟩
    · exact ⟨_, rfl⟩
    · exact ⟨_, rfl⟩

theorem tells_of_selectsNodes (hcluster : d.resolveCluster? cluster = some module)
    (h : d.SelectsNodes cluster [host] (d.selectNodes cluster [host])) : d.Tells module host := by
  constructor
  case found =>
    intro hmem
    obtain ⟨names, hok⟩ := h.succeeds.2 ⟨module, hcluster, by simpa using hmem⟩
    have hfinds := (selectNodes_eq_ok hcluster).1 hok
    obtain ⟨name, -, hfound, -, -⟩ := List.forall₂_cons_left_iff.1 hfinds
    exact ⟨name, hfound.mem, hfound.reads⟩
  case right =>
    intro name hfound
    have hok := (selectNodes_eq_ok hcluster).2 (.cons hfound .nil)
    obtain ⟨-, hhost⟩ := (List.forall₂_cons.1 (h.picks [name] module hok hcluster)).1
    exact hhost

/-! ## Names without a dot -/

theorem hostAt_of_dotless (h : '.' ∉ name.toList) : d.hostAt name = (d.hostname? name).getD "" := by
  have hpath : "module." ++ name ++ ".hostname" = "module." ++ name ++ "." ++ "hostname" := by
    simp [String.append_assoc]
  rw [hostAt, getText, hpath, get?_field h (by decide), hostname?]
  cases d.module? name <;> rfl

theorem tells_of_dotless (hnames : ∀ name ∈ d.nodes module, '.' ∉ name.toList)
    (hhosts : host = "" → ∀ name ∈ d.nodes module, d.hostname? name ≠ none) :
    d.Tells module host := by
  constructor
  case found =>
    intro hmem
    obtain ⟨name, hname, hhost⟩ := mem_hostnames_iff.1 hmem
    refine ⟨name, hname, ?_⟩
    rw [hostAt_of_dotless (hnames name hname), hhost, Option.getD_some]
  case right =>
    intro name hfound
    have hreads := hfound.reads
    rw [hostAt_of_dotless (hnames name hfound.mem)] at hreads
    cases hhost : d.hostname? name with
    | some other => rw [← hreads, hhost, Option.getD_some]
    | none =>
      rw [hhost, Option.getD_none] at hreads
      exact absurd hhost (hhosts hreads.symm name hfound.mem)

/-- Selections of nodes of a cluster answer as they should exactly if reading by path is right for
all host names. It is for names without a dot, as long as no node without a host name is asked for
by the empty one. -/
theorem selectsNodes_iff (d : Document) (cluster : String) :
    ((∀ hosts, d.SelectsNodes cluster hosts (d.selectNodes cluster hosts)) ↔
      ∀ module, d.resolveCluster? cluster = some module → ∀ host, d.Tells module host) ∧
    ∀ hosts, (∀ module, d.resolveCluster? cluster = some module → ∀ name ∈ d.nodes module,
        '.' ∉ name.toList ∧ ("" ∈ hosts → d.hostname? name ≠ none)) →
      d.SelectsNodes cluster hosts (d.selectNodes cluster hosts) := by
  constructor
  · constructor
    · intro h module hcluster host
      exact tells_of_selectsNodes hcluster (h [host])
    · intro h hosts
      exact selectsNodes_of_tells fun module hcluster host _ => h module hcluster host
  · intro hosts h
    apply selectsNodes_of_tells
    intro module hcluster host hmem
    apply tells_of_dotless
    · intro name hname
      exact (h module hcluster name hname).1
    · rintro rfl name hname
      exact (h module hcluster name hname).2 hmem

/-- A cluster with a node that has a dot in its name, one without a host name, and a module that is
no node of it but lies on the path of the first one. -/
def blurred : Document :=
  let joined := ("rancher_environment_id", Json.string (Reference.cluster "cluster_aws_prod"))
  (((Document.empty.put "cluster_aws_prod" (.ofList [("name", .string "prod")])).put
    "node_aws_prod_a" (.ofList [("b", .object [("hostname", .string "db")])])).put
    "node_aws_prod_a.b" (.ofList [("hostname", .string "web"), joined])).put
    "node_aws_prod_c" (.ofList [joined])

/-- The only host name of the cluster is not found, and two others are. -/
theorem selectNodes_blurred : blurred.hostnames "cluster_aws_prod" = ["web"] ∧
    blurred.selectNodes "prod" ["web"] = .error (.missing (.node "web" "prod")) ∧
    blurred.selectNodes "prod" ["db"] = .ok ["node_aws_prod_a.b"] ∧
    blurred.selectNodes "prod" [""] = .ok ["node_aws_prod_c"] ∧
    ∀ host ∈ ["web", "db", ""],
      ¬blurred.SelectsNodes "prod" [host] (blurred.selectNodes "prod" [host]) := by
  have hcluster : blurred.resolveCluster? "prod" = some "cluster_aws_prod" := by decide +kernel
  have hhosts : blurred.hostnames "cluster_aws_prod" = ["web"] := by decide +kernel
  have hweb : blurred.selectNodes "prod" ["web"] = .error (.missing (.node "web" "prod")) := by
    decide +kernel
  have hdb : blurred.selectNodes "prod" ["db"] = .ok ["node_aws_prod_a.b"] := by decide +kernel
  have hnone : blurred.selectNodes "prod" [""] = .ok ["node_aws_prod_c"] := by decide +kernel
  refine ⟨hhosts, hweb, hdb, hnone, ?_⟩
  intro host hmem h
  have hsucceeds := h.succeeds
  simp only [hcluster, Option.some.injEq, exists_eq_left', hhosts] at hsucceeds
  simp only [List.mem_cons, List.not_mem_nil, or_false] at hmem
  rcases hmem with rfl | rfl | rfl
  · simp [hweb] at hsucceeds
  · simp [hdb] at hsucceeds
  · simp [hnone] at hsucceeds

end ClusterLedger.Document
