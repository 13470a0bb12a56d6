import ClusterLedger.Proofs.Document.Nodes

/-!
# Requests that fail

A request for a manager or a cluster makes all its checks before it puts its module. Nodes are added
one by one instead, so a name that is taken behind one that is free stops the request half way.
-/
namespace ClusterLedger

variable {sources : Sources} {d : Document} {p : NodePlan} {added rest : List String}
  {host other : String}

/-- A change that fails leaves the document as it was. -/
def Change.AtomicAt {α : Type} (change : Change α) (d : Document) : Prop :=
  ∀ e d', change d = (.error e, d') → d' = d

theorem Change.atomicAt_ofResult {α : Type} (f : Document → Result (α × Document)) (d : Document) :
    (Change.ofResult f).AtomicAt d := by
  intro e d' h
  rw [ofResult] at h
  split at h
  · cases h
  · cases h
    rfl

/-! ## Names that are taken -/

namespace NodePlan

def Taken (p : NodePlan) (d : Document) (host : String) : Prop :=
  host ∈ p.existing ∨ d.contains (ModuleName.node p.provider p.cluster host) = true

instance (p : NodePlan) (d : Document) : DecidablePred (p.Taken d) := fun _ =>
  inferInstanceAs (Decidable (_ ∨ _))

/-- The first of the planned names that is taken, and the free ones in front of it. -/
structure StopsAt (p : NodePlan) (d : Document) (added : List String) (host : String) : Prop where
  names : added ++ [host] <+: p.hostnames
  free : ∀ other ∈ added, ¬p.Taken d other
  taken : p.Taken d host

theorem stopsAt_or_free (p : NodePlan) (d : Document) :
    (∀ host ∈ p.hostnames, ¬p.Taken d host) ∨ ∃ added host, p.StopsAt d added host := by
  cases hfind : p.hostnames.find? (p.Taken d) with
  | none =>
    left
    simpa using hfind
  | some host =>
    right
    obtain ⟨htaken, added, rest, hnames, hfree⟩ := List.find?_eq_some_iff_append.1 hfind
    refine ⟨added, host, ⟨rest, ?_⟩, by simpa using hfree, by simpa using htaken⟩
    rw [hnames, List.append_assoc, List.singleton_append]

end NodePlan

/-! ## Adding up to a name -/

/-- The document with the nodes of some host names put in. -/
def Document.withNodes (d : Document) (p : NodePlan) (sources : Sources) (hosts : List String) :
    Document :=
  { d with modules := d.modules.insertAll (NodeRequest.entries p sources hosts) }

theorem Document.withNodes_cons (d : Document) (p : NodePlan) (sources : Sources) (host : String)
    (rest : List String) : d.withNodes p sources (host :: rest) =
      (d.put (ModuleName.node p.provider p.cluster host)
        (NodeRequest.node p sources host).toRecord).withNodes p sources rest :=
  rfl

namespace NodePlan

theorem taken_put {r : Record} :
    p.Taken (d.put (ModuleName.node p.provider p.cluster host) r) other ↔
      other = host ∨ p.Taken d other := by
  have hname : ModuleName.node p.provider p.cluster host =
      ModuleName.node p.provider p.cluster other ↔ other = host :=
    (ModuleName.node_injective p.provider p.cluster).eq_iff.trans eq_comm
  simp only [Taken, Document.contains_put, hname]
  tauto

theorem taken_withNodes {hosts : List String} :
    p.Taken (d.withNodes p sources hosts) other ↔ other ∈ hosts ∨ p.Taken d other := by
  induction hosts generalizing d with
  | nil => simp [Document.withNodes, NodeRequest.entries, Dict.insertAll]
  | cons host rest ih => simp [Document.withNodes_cons, ih, taken_put, or_assoc, or_left_comm]

end NodePlan

theorem Provider.dotless_slug (p : Provider) : '.' ∉ p.slug.toList := by
  cases p <;> decide

namespace ModuleName

theorem dotless_node {q : Provider} {owner host : String} (hhost : '.' ∉ host.toList) :
    '.' ∉ (node q owner host).toList ↔ '.' ∉ owner.toList := by
  simp [node, String.toList_append, q.dotless_slug, hhost]

end ModuleName

namespace NodeRequest

theorem addNode_of_dotless (d : Document) (sources : Sources) (hcluster : '.' ∉ p.cluster.toList)
    (hhost : '.' ∉ host.toList) : d.addNode p.provider p.cluster (node p sources host) =
      .ok (ModuleName.node p.provider p.cluster host,
        d.put (ModuleName.node p.provider p.cluster host) (node p sources host).toRecord) := by
  have hname : ModuleName.IsPlain (ModuleName.node p.provider p.cluster host) := by
    refine ⟨fun he => ?_, (ModuleName.dotless_node hhost).2 hcluster⟩
    have hlength := congrArg String.length he
    simp [ModuleName.node] at hlength
  simp only [Document.addNode, hostname_node, Document.addRecord_ofFields d hname]
  rfl

theorem addNode_of_dot (d : Document) (sources : Sources) (hcluster : '.' ∈ p.cluster.toList) :
    ∃ e, d.addNode p.provider p.cluster (node p sources host) = .error e := by
  cases hadd : d.addNode p.provider p.cluster (node p sources host) with
  | error e => exact ⟨e, rfl⟩
  | ok added =>
    obtain ⟨_, hrecord, -⟩ := Except.map_eq_ok.1 hadd
    have hname := (Document.addRecord_eq_ok.1 hrecord).1
    rw [ModuleName.ofPath_node] at hname
    apply absurd _ hname.2
    simp [ModuleName.node, String.toList_append, hcluster]

theorem addNodes_of_taken (sources : Sources) (rest : List String) (h : p.Taken d host) :
    addNodes p sources (host :: rest) d = (.error (.collision (.node host p.cluster)), d) := by
  rw [addNodes_cons]
  exact if_pos h

/-- Names that are free are added, one after the other. -/
theorem addNodes_append (hcluster : '.' ∉ p.cluster.toList)
    (hhosts : ∀ host ∈ added, '.' ∉ host.toList) (hdistinct : added.Nodup)
    (hfree : ∀ host ∈ added, ¬p.Taken d host) :
    addNodes p sources (added ++ rest) d =
      addNodes p sources rest (d.withNodes p sources added) := by
  induction added generalizing d with
  | nil => rfl
  | cons host added ih =>
    obtain ⟨hnew, hdistinct⟩ := List.nodup_cons.1 hdistinct
    obtain ⟨hhost, hhosts⟩ := List.forall_mem_cons.1 hhosts
    obtain ⟨hfirst, hfree⟩ := List.forall_mem_cons.1 hfree
    have hadd := addNode_of_dotless d sources hcluster hhost
    rw [List.cons_append, addNodes_cons, hadd, Document.withNodes_cons]
    apply (if_neg hfirst).trans
    apply ih hhosts hdistinct
    intro other hmem htaken
    rcases NodePlan.taken_put.1 htaken with rfl | htaken
    · exact hnew hmem
    · exact hfree other hmem htaken

/-! ## Requests that stop half way -/

/-- A name in the middle is taken, and the nodes in front of it can be added. -/
def StopsHalfway (r : NodeRequest) (d : Document) : Prop :=
  ∃ p added host, r.plan d = .ok p ∧ '.' ∉ p.cluster.toList ∧ added ≠ [] ∧ p.StopsAt d added host

theorem dotless_of_segment {s : String} (h : isNameSegment s = true) : '.' ∉ s.toList := by
  intro hdot
  have hclass := (isNameSegment_iff.1 h).2 '.' hdot
  revert hclass
  decide

theorem Planned.dotless {r : NodeRequest} (h : r.Planned d p) :
    ∀ host ∈ p.hostnames, '.' ∉ host.toList := by
  intro host hmem
  rw [h.hostnames] at hmem
  exact dotless_of_segment (Hostname.fresh_segment h.segment hmem)

theorem Planned.nodup {r : NodeRequest} (h : r.Planned d p) : p.hostnames.Nodup := by
  rw [h.hostnames]
  exact Hostname.fresh_nodup ..

theorem Planned.ne_nil {r : NodeRequest} (h : r.Planned d p) : p.hostnames ≠ [] := by
  intro hnil
  have hlength := Hostname.fresh_length p.existing r.hostname r.count
  rw [← h.hostnames, hnil] at hlength
  exact h.positive hlength.symm

theorem change_of_plan {r : NodeRequest} (h : r.plan d = .ok p) {result : Result Unit}
    {d' : Document} (hadd : addNodes p sources p.hostnames d = (result, d')) :
    r.change sources d = (result.map fun _ => p.hostnames, d') := by
  rw [change, h]
  dsimp only
  rw [hadd]
  cases result <;> rfl

/-- The nodes in front of the first name that is taken stay in the document. -/
theorem change_of_stopsAt {r : NodeRequest} (hplan : r.plan d = .ok p)
    (hcluster : '.' ∉ p.cluster.toList) (h : p.StopsAt d added host) :
    r.change sources d =
      (.error (.collision (.node host p.cluster)), d.withNodes p sources added) := by
  have hp := plan_eq_ok hplan
  obtain ⟨rest, hnames⟩ := h.names
  rw [List.append_assoc, List.singleton_append] at hnames
  have hdistinct := hp.nodup
  rw [← hnames] at hdistinct
  have hadd : addNodes p sources p.hostnames d =
      (.error (.collision (.node host p.cluster)), d.withNodes p sources added) := by
    rw [← hnames, addNodes_append hcluster
      (fun other hmem => hp.dotless other (hnames ▸ List.mem_append_left _ hmem))
      (List.nodup_append.1 hdistinct).1 h.free]
    exact addNodes_of_taken sources rest (NodePlan.taken_withNodes.2 (.inr h.taken))
  exact change_of_plan hplan hadd

theorem change_of_free {r : NodeRequest} (hplan : r.plan d = .ok p)
    (hcluster : '.' ∉ p.cluster.toList) (hfree : ∀ host ∈ p.hostnames, ¬p.Taken d host) :
    r.change sources d = (.ok p.hostnames, d.withNodes p sources p.hostnames) := by
  have hp := plan_eq_ok hplan
  have hadd : addNodes p sources (p.hostnames ++ []) d =
      addNodes p sources [] (d.withNodes p sources p.hostnames) :=
    addNodes_append hcluster hp.dotless hp.nodup hfree
  rw [List.append_nil] at hadd
  exact change_of_plan hplan hadd

/-- In a cluster whose name has a dot not even the first node can be added. -/
theorem change_of_dot {r : NodeRequest} (hplan : r.plan d = .ok p)
    (hcluster : '.' ∈ p.cluster.toList) : (r.change sources d).2 = d := by
  obtain ⟨host, rest, hnames⟩ := List.exists_cons_of_ne_nil (plan_eq_ok hplan).ne_nil
  have hadd : ∃ e, addNodes p sources p.hostnames d = (.error e, d) := by
    rw [hnames]
    by_cases htaken : p.Taken d host
    · exact ⟨_, addNodes_of_taken sources rest htaken⟩
    · obtain ⟨e, he⟩ : ∃ e, d.addNode p.provider p.cluster (node p sources host) = .error e :=
        addNode_of_dot d sources hcluster
      refine ⟨e, ?_⟩
      rw [addNodes_cons, he]
      exact if_neg htaken
  obtain ⟨e, hadd⟩ := hadd
  rw [change_of_plan hplan hadd]

theorem withNodes_ne {first : String} (hfree : ¬p.Taken d first) (hmem : first ∈ added) :
    d.withNodes p sources added ≠ d := by
  intro he
  have htaken : p.Taken (d.withNodes p sources added) first :=
    NodePlan.taken_withNodes.2 (.inl hmem)
  rw [he] at htaken
  exact hfree htaken

theorem atomicAt_change_iff {r : NodeRequest} :
    (r.change sources).AtomicAt d ↔ ¬r.StopsHalfway d := by
  constructor
  · rintro hatomic ⟨p, added, host, hplan, hcluster, hne, hstops⟩
    obtain ⟨first, hmem⟩ := List.exists_mem_of_ne_nil _ hne
    exact withNodes_ne (hstops.free first hmem) hmem
      (hatomic _ _ (change_of_stopsAt hplan hcluster hstops))
  · intro hwhole e d' h
    cases hplan : r.plan d with
    | error e' =>
      rw [change, hplan] at h
      cases h
      rfl
    | ok p =>
      by_cases hcluster : '.' ∈ p.cluster.toList
      · have hsame : (r.change sources d).2 = d := change_of_dot hplan hcluster
        rw [h] at hsame
        exact hsame
      rcases p.stopsAt_or_free d with hfree | ⟨added, host, hstops⟩
      · rw [change_of_free hplan hcluster hfree] at h
        cases h
      · rw [change_of_stopsAt hplan hcluster hstops] at h
        cases h
        -- nothing was added in front of the name, or the request would have stopped half way
        cases added with
        | nil => rfl
        | cons first added =>
          exact absurd ⟨p, _, host, hplan, hcluster, List.cons_ne_nil _ _, hstops⟩ hwhole

end NodeRequest

/-! ## All requests -/

namespace Request

/-- The request leaves the document as it was if it fails. -/
def AtomicAt (sources : Sources) : Request → Document → Prop
  | manager r, d => (r.change sources).AtomicAt d
  | cluster r, d => (r.change sources).AtomicAt d
  | nodes r, d => (r.change sources).AtomicAt d

def StopsHalfway : Request → Document → Prop
  | nodes r, d => r.StopsHalfway d
  | _, _ => False

/-- A request that fails leaves the document as it was, unless it is one for nodes that stops half
way. Then it fails because a name is taken, and has added exactly the nodes in front of that name. -/
theorem atomicAt_iff (request : Request) (sources : Sources) (d : Document) :
    (request.AtomicAt sources d ↔ ¬request.StopsHalfway d) ∧
    ∀ r p added host, request = .nodes r → r.plan d = .ok p → '.' ∉ p.cluster.toList →
      p.StopsAt d added host → r.change sources d =
        (.error (.collision (.node host p.cluster)), d.withNodes p sources added) := by
  constructor
  · cases request with
    | manager r => exact iff_of_true (Change.atomicAt_ofResult _ d) not_false
    | cluster r => exact iff_of_true (Change.atomicAt_ofResult _ d) not_false
    | nodes r => exact NodeRequest.atomicAt_change_iff
  · intro r p added host _ hplan hcluster hstops
    exact NodeRequest.change_of_stopsAt hplan hcluster hstops

/-- A cluster, and a module under the name of a node that does not join it. -/
def strayed : Document :=
  (Document.empty.put "cluster_aws_dev" (.ofList [("name", .string "dev")])).put
    "node_aws_dev_web-2" (.ofList [("hostname", .string "stray")])

def twoNodes : NodeRequest :=
  ⟨"dev", none, "web", 2, Dict.empty⟩

/-- The first node stays although the second could not be added. -/
theorem change_strayed : (twoNodes.change .standard strayed).1 =
      .error (.collision (.node "web-2" "dev")) ∧
    (twoNodes.change .standard strayed).2.moduleNames =
      ["cluster_aws_dev", "node_aws_dev_web-1", "node_aws_dev_web-2"] ∧
    ¬(nodes twoNodes).AtomicAt .standard strayed := by
  have herror : (twoNodes.change .standard strayed).1 =
      .error (.collision (.node "web-2" "dev")) := by decide +kernel
  have hnames : (twoNodes.change .standard strayed).2.moduleNames =
      ["cluster_aws_dev", "node_aws_dev_web-1", "node_aws_dev_web-2"] := by decide +kernel
  refine ⟨herror, hnames, ?_⟩
  intro hatomic
  have hsame : (twoNodes.change .standard strayed).2 = strayed :=
    hatomic _ _ (Prod.ext herror rfl)
  rw [hsame] at hnames
  revert hnames
  decide

end Request

end ClusterLedger
