import ClusterLedger.Proofs.Document.Reopen
import ClusterLedger.Proofs.Hostname

/-!
# The effect of a request for nodes

A request that succeeds adds as many nodes as it asked for to the cluster that it found, each under
a name that was free, and leaves every other module alone.
-/
namespace ClusterLedger

variable {sources : Sources} {d d' : Document}

/-! ## Fields by path -/

namespace Document

/-- Where neither name has a dot, a path leads to the field. -/
theorem get?_field {module field : String} (hm : '.' ∉ module.toList) (hf : '.' ∉ field.toList) :
    d.get? ("module." ++ module ++ "." ++ field) = (d.module? module).bind (·.get? field) := by
  rw [get?, segments_field, Text.segments_of_not_mem hm, Text.segments_of_not_mem hf,
    List.singleton_append, find?, if_pos rfl]
  cases d.module? module with
  | none => rfl
  | some record =>
    have hstep : (Json.ofFields record).step? field = record.get? field := rfl
    simp only [Option.bind_some, Json.navigate, hstep]
    cases record.get? field <;> rfl

end Document

theorem Provider.dotless_credentialField (p : Provider) {field : String}
    (h : field ∈ p.credentialFields) : '.' ∉ field.toList := by
  have hall : ∀ p ∈ Provider.all, ∀ field ∈ p.credentialFields, '.' ∉ field.toList := by decide
  exact hall p p.mem_all field h

namespace ModuleName

theorem node_injective (p : Provider) (owner : String) : Function.Injective (node p owner) := by
  intro a b h
  exact Text.append_left_cancel h

theorem dotless_cluster {p : Provider} {owner host : String} (h : '.' ∉ (node p owner host).toList) :
    '.' ∉ (cluster p owner).toList := by
  have hfront : '.' ∉ "cluster_".toList := by decide
  have hmark : '.' ∉ "_".toList := by decide
  simp only [cluster, node, String.toList_append, List.mem_append] at h ⊢
  tauto

end ModuleName

namespace NodeRequest

/-! ## The record of a node -/

/-- What stands in a field of a new node of a cluster module: its own fields, then the account
fields that the record of the cluster has, then the settings. -/
def field? (r : NodeRequest) (sources : Sources) (d : Document) (p : Provider)
    (module host field : String) : Option Json :=
  if field = "source" then some (.string (sources.node p))
  else if field = "hostname" then some (.string host)
  else if field = "rancher_api_url" then some (.string Reference.managerApi)
  else if field = Reference.environment then some (.string (Reference.cluster module))
  else if field ∈ p.credentialFields then
    ((d.module? module).bind (·.get? field)).or (r.settings.get? field)
  else r.settings.get? field

theorem field?_of_not_mem {r : NodeRequest} {p : Provider} {module host field : String}
    (h : field ∉ NodeView.fields) : r.field? sources d p module host field =
      if field ∈ p.credentialFields then
        ((d.module? module).bind (·.get? field)).or (r.settings.get? field)
      else r.settings.get? field := by
  simp only [NodeView.fields, List.mem_cons, List.not_mem_nil, or_false, not_or] at h
  rw [field?, if_neg h.1, if_neg h.2.1, if_neg h.2.2.1, if_neg h.2.2.2]

theorem get?_node {r : NodeRequest} {p : NodePlan} (h : r.Planned d p)
    (hdot : '.' ∉ p.module.toList) (host field : String) :
    (node p sources host).toRecord.get? field =
      r.field? sources d p.provider p.module host field := by
  rw [node, NodeView.toRecord, Record.get?_ofTexts]
  by_cases hf : field ∈ NodeView.fields
  · rw [Settings.get?_of_check h.check hf, Option.none_or]
    simp only [NodeView.fields, List.mem_cons, List.not_mem_nil, or_false] at hf
    rcases hf with rfl | rfl | rfl | rfl <;> rfl
  · have hnone : Entries.get? field [("source", sources.node p.provider), ("hostname", host),
        ("rancher_api_url", Reference.managerApi),
        (Reference.environment, Reference.cluster p.module)].reverse = none := by
      apply Entries.get?_eq_none.2
      intro v hv
      simp only [List.mem_reverse, List.mem_cons, List.not_mem_nil, or_false, Prod.mk.injEq] at hv
      simp only [NodeView.fields, List.mem_cons, List.not_mem_nil, or_false] at hf
      tauto
    rw [hnone, Option.map_none, Option.or_none, h.settings, get?_inherit, field?_of_not_mem hf]
    by_cases hc : field ∈ p.provider.credentialFields
    · rw [if_pos hc, if_pos hc,
        Document.get?_field hdot (p.provider.dotless_credentialField hc)]
    · rw [if_neg hc, if_neg hc]

/-! ## Adding one node after the other -/

/-- The modules of new nodes. -/
def entries (p : NodePlan) (sources : Sources) (hosts : List String) : List (String × Record) :=
  hosts.map fun host => (ModuleName.node p.provider p.cluster host, (node p sources host).toRecord)

theorem distinct_entries (p : NodePlan) (sources : Sources) {hosts : List String}
    (h : hosts.Nodup) : Entries.Distinct (entries p sources hosts) := by
  apply List.pairwise_map.2
  apply h.imp
  intro a b hne he
  exact hne (ModuleName.node_injective _ _ he)

/-- Adding all of the nodes puts their modules, and none of them was there. -/
theorem addNodes_eq_ok {p : NodePlan} {hosts : List String}
    (h : addNodes p sources hosts d = (.ok (), d')) :
    d'.modules = d.modules.insertAll (entries p sources hosts) ∧ d'.extra = d.extra ∧
    ∀ host ∈ hosts, host ∉ p.existing ∧
      d.contains (ModuleName.node p.provider p.cluster host) = false ∧
      '.' ∉ (ModuleName.node p.provider p.cluster host).toList := by
  induction hosts generalizing d with
  | nil =>
    cases h
    exact ⟨rfl, rfl, nofun⟩
  | cons host rest ih =>
    rw [addNodes_cons] at h
    split at h
    · cases h
    next hfree =>
    obtain ⟨hexisting, habsent⟩ := not_or.1 hfree
    split at h
    · next m e hadd =>
      have he := addNode_eq_ok hadd
      rw [hostname_node] at he
      obtain ⟨hmodules, hextra, hrest⟩ := ih h
      subst he
      refine ⟨hmodules, hextra, ?_⟩
      intro host' hmem
      rcases List.mem_cons.1 hmem with rfl | hmem
      · obtain ⟨_, hrecord, -⟩ := Except.map_eq_ok.1 hadd
        have hname := (Document.addRecord_eq_ok.1 hrecord).1
        rw [ModuleName.ofPath_node] at hname
        exact ⟨hexisting, by simpa using habsent, hname.2⟩
      · obtain ⟨hfree', habsent', hdot'⟩ := hrest host' hmem
        refine ⟨hfree', ?_, hdot'⟩
        -- what is not there after the first node was not there before it
        apply Bool.eq_false_iff.2
        intro hthere
        rw [(Document.contains_put d _ _ _).2 (.inr hthere)] at habsent'
        cases habsent'
    · cases h

theorem change_eq_ok {r : NodeRequest} {hosts : List String}
    (h : r.change sources d = (.ok hosts, d')) :
    ∃ p, r.Planned d p ∧ hosts = p.hostnames ∧ addNodes p sources p.hostnames d = (.ok (), d') := by
  rw [change] at h
  split at h
  · cases h
  next p hp =>
  split at h
  · next e hadd =>
    cases h
    exact ⟨p, plan_eq_ok hp, rfl, hadd⟩
  · cases h

end NodeRequest

/-! ## More nodes in a cluster -/

namespace Document

/-- New nodes of a cluster, and all other modules as they were. -/
structure Grows (p : Provider) (n : String) (hosts : List String) (d d' : Document) : Prop where
  absent : ∀ host ∈ hosts, d.contains (ModuleName.node p n host) = false
  present : ∀ host ∈ hosts, ∃ record, d'.module? (ModuleName.node p n host) = some record ∧
    record.text? "hostname" = some host ∧
    record.text? Reference.environment = some (Reference.cluster (ModuleName.cluster p n))
  others : ∀ name, (∀ host ∈ hosts, name ≠ ModuleName.node p n host) →
    d'.module? name = d.module? name

namespace Grows

variable {p : Provider} {n : String} {hosts : List String} {name module host : String}

theorem ne_of_module? (h : d.Grows p n hosts d') {record : Record}
    (hr : d.module? name = some record) : ∀ host ∈ hosts, name ≠ ModuleName.node p n host := by
  intro host hmem he
  have hthere := contains_iff.2 ⟨record, he ▸ hr⟩
  rw [h.absent host hmem] at hthere
  cases hthere

theorem mem_nodes_of_ne (h : d.Grows p n hosts d')
    (hne : ∀ host ∈ hosts, name ≠ ModuleName.node p n host) :
    name ∈ d'.nodes module ↔ name ∈ d.nodes module := by
  rw [mem_nodes, mem_nodes, h.others name hne]

theorem mem_nodes_of_mem (h : d.Grows p n hosts d') (hmem : host ∈ hosts) :
    ModuleName.node p n host ∈ d'.nodes module ↔ module = ModuleName.cluster p n := by
  obtain ⟨record, hr, -, henvironment⟩ := h.present host hmem
  have hnode : ModuleName.isNode (ModuleName.node p n host) = true :=
    ModuleName.isNode_iff.2 ⟨p, ModuleName.kind?_node p n host⟩
  rw [mem_nodes]
  constructor
  · rintro ⟨record', hr', -, hjoins⟩
    cases hr.symm.trans hr'
    exact Reference.cluster_injective (Option.some.inj (hjoins.symm.trans henvironment))
  · rintro rfl
    exact ⟨record, hr, hnode, henvironment⟩

theorem not_mem_nodes (h : d.Grows p n hosts d') (hmem : host ∈ hosts) :
    ModuleName.node p n host ∉ d.nodes module := by
  intro hthere
  obtain ⟨record, hr, -⟩ := mem_nodes.1 hthere
  exact h.ne_of_module? hr host hmem rfl

theorem mem_nodes (h : d.Grows p n hosts d') : name ∈ d'.nodes (ModuleName.cluster p n) ↔
    name ∈ d.nodes (ModuleName.cluster p n) ∨ ∃ host ∈ hosts, name = ModuleName.node p n host := by
  by_cases hnew : ∃ host ∈ hosts, name = ModuleName.node p n host
  · obtain ⟨host, hmem, rfl⟩ := hnew
    exact iff_of_true ((h.mem_nodes_of_mem hmem).2 rfl) (.inr ⟨host, hmem, rfl⟩)
  · rw [h.mem_nodes_of_ne fun host hmem he => hnew ⟨host, hmem, he⟩]
    exact (or_iff_left hnew).symm

theorem nodes_elsewhere (h : d.Grows p n hosts d') (hne : module ≠ ModuleName.cluster p n) :
    d'.nodes module = d.nodes module := by
  apply Dict.eq_keys (Dict.keys_sorted _)
  intro name
  rw [← Dict.mem_keys]
  by_cases hnew : ∃ host ∈ hosts, name = ModuleName.node p n host
  · obtain ⟨host, hmem, rfl⟩ := hnew
    exact iff_of_false (mt (h.mem_nodes_of_mem hmem).1 hne) (h.not_mem_nodes hmem)
  · exact h.mem_nodes_of_ne fun host hmem he => hnew ⟨host, hmem, he⟩

end Grows

theorem mem_hostnames {module host : String} : host ∈ d.hostnames module ↔
    ∃ name ∈ d.nodes module, ∃ record, d.module? name = some record ∧
      record.text? "hostname" = some host := by
  simp only [hostnames, Dict.mem_names, List.mem_filterMap, Option.bind_eq_some_iff]

theorem Grows.mem_hostnames {p : Provider} {n : String} {hosts : List String} {host : String}
    (h : d.Grows p n hosts d') : host ∈ d'.hostnames (ModuleName.cluster p n) ↔
      host ∈ d.hostnames (ModuleName.cluster p n) ∨ host ∈ hosts := by
  simp only [Document.mem_hostnames, h.mem_nodes]
  constructor
  · rintro ⟨name, hname | ⟨host', hmem, rfl⟩, record, hr, hhost⟩
    · obtain ⟨old, hold, -⟩ := Document.mem_nodes.1 hname
      rw [h.others name (h.ne_of_module? hold)] at hr
      exact .inl ⟨name, hname, record, hr, hhost⟩
    · obtain ⟨record', hr', hhost', -⟩ := h.present host' hmem
      cases hr.symm.trans hr'
      cases hhost.symm.trans hhost'
      exact .inr hmem
  · rintro (⟨name, hname, record, hr, hhost⟩ | hmem)
    · refine ⟨name, .inl hname, record, ?_, hhost⟩
      rw [h.others name (h.ne_of_module? hr), hr]
    · obtain ⟨record, hr, hhost, -⟩ := h.present host hmem
      exact ⟨_, .inr ⟨host, hmem, rfl⟩, record, hr, hhost⟩

end Document

/-! ## The effect of the request -/

namespace NodeRequest

theorem grows_of_entries {r : NodeRequest} {p : NodePlan} {hosts : List String}
    (h : r.Planned d p) (hdistinct : hosts.Nodup)
    (habsent : ∀ host ∈ hosts, d.contains (ModuleName.node p.provider p.cluster host) = false)
    (hmodules : d'.modules = d.modules.insertAll (entries p sources hosts)) :
    d.Grows p.provider p.cluster hosts d' ∧ ∀ host ∈ hosts,
      d'.module? (ModuleName.node p.provider p.cluster host) =
        some (node p sources host).toRecord := by
  have hpresent : ∀ host ∈ hosts, d'.module? (ModuleName.node p.provider p.cluster host) =
      some (node p sources host).toRecord := by
    intro host hmem
    have hentry : (ModuleName.node p.provider p.cluster host, (node p sources host).toRecord) ∈
        (entries p sources hosts).reverse :=
      List.mem_reverse.2 (List.mem_map_of_mem hmem)
    have hreverse := (distinct_entries p sources hdistinct).perm (List.reverse_perm _).symm
    rw [Document.module?, hmodules, Dict.get?_insertAll, hreverse.get?_of_mem hentry, Option.some_or]
  have hothers : ∀ name, (∀ host ∈ hosts, name ≠ ModuleName.node p.provider p.cluster host) →
      d'.module? name = d.module? name := by
    intro name hne
    rw [Document.module?, hmodules, Dict.get?_insertAll_of_not_mem, Document.module?]
    intro record hentry
    obtain ⟨host, hmem, he⟩ := List.mem_map.1 hentry
    cases he
    exact hne host hmem rfl
  refine ⟨⟨habsent, fun host hmem => ⟨_, hpresent host hmem, ?_, ?_⟩, hothers⟩, hpresent⟩
  · exact NodeView.text?_hostname h.check
  · rw [← h.module_eq.2]
    exact NodeView.text?_environment h.check

/-- What a request for nodes promises of the cluster `n` of a provider when it reports `hosts`. -/
structure Extends (r : NodeRequest) (sources : Sources) (p : Provider) (n : String)
    (d : Document) (hosts : List String) (d' : Document) : Prop where
  length : hosts.length = r.count
  distinct : hosts.Nodup
  unused : ∀ host ∈ hosts, host ∉ d.hostnames (ModuleName.cluster p n)
  absent : ∀ host ∈ hosts, d.contains (ModuleName.node p n host) = false
  present : ∀ host ∈ hosts, ∃ record, d'.module? (ModuleName.node p n host) = some record ∧
    ∀ field, record.get? field = r.field? sources d p (ModuleName.cluster p n) host field
  others : ∀ name, (∀ host ∈ hosts, name ≠ ModuleName.node p n host) →
    d'.module? name = d.module? name
  extra : d'.extra = d.extra
  nodes : ∀ name, name ∈ d'.nodes (ModuleName.cluster p n) ↔
    name ∈ d.nodes (ModuleName.cluster p n) ∨ ∃ host ∈ hosts, name = ModuleName.node p n host
  hostnames : ∀ host, host ∈ d'.hostnames (ModuleName.cluster p n) ↔
    host ∈ d.hostnames (ModuleName.cluster p n) ∨ host ∈ hosts
  elsewhere : ∀ module, module ≠ ModuleName.cluster p n → d'.nodes module = d.nodes module

/-- A request for nodes that succeeds extends the cluster it found. -/
theorem change_extends {r : NodeRequest} {hosts : List String}
    (h : r.change sources d = (.ok hosts, d')) :
    ∃ p n, d.resolveCluster? r.cluster = some (ModuleName.cluster p n) ∧
      ModuleName.kind? (ModuleName.cluster p n) = some (.cluster p) ∧
      r.Extends sources p n d hosts d' := by
  obtain ⟨p, hp, rfl, hadd⟩ := change_eq_ok h
  obtain ⟨hmodules, hextra, hfree⟩ := addNodes_eq_ok hadd
  have hmodule := hp.module_eq.2
  have hlength : p.hostnames.length = r.count := by
    rw [hp.hostnames, Hostname.fresh_length]
  have hdistinct : p.hostnames.Nodup := by
    rw [hp.hostnames]
    exact Hostname.fresh_nodup ..
  obtain ⟨hgrows, hpresent⟩ :=
    grows_of_entries hp hdistinct (fun host hmem => (hfree host hmem).2.1) hmodules
  -- at least one node was added, and its name would have been refused with a dot in it
  have hdot : '.' ∉ p.module.toList := by
    have hne : p.hostnames ≠ [] := by
      intro hnil
      rw [hnil] at hlength
      exact hp.positive hlength.symm
    obtain ⟨host, hmem⟩ := List.exists_mem_of_ne_nil _ hne
    rw [hmodule]
    exact ModuleName.dotless_cluster (hfree host hmem).2.2
  refine ⟨p.provider, p.cluster, hmodule ▸ hp.resolved, hmodule ▸ hp.kind, ?_⟩
  exact {
    length := hlength
    distinct := hdistinct
    unused := by
      intro host hmem
      rw [← hmodule, ← hp.existing]
      exact (hfree host hmem).1
    absent := hgrows.absent
    present := by
      intro host hmem
      rw [← hmodule]
      exact ⟨_, hpresent host hmem, get?_node hp hdot host⟩
    others := hgrows.others
    extra := hextra
    nodes := fun _ => hgrows.mem_nodes
    hostnames := fun _ => hgrows.mem_hostnames
    elsewhere := fun _ => hgrows.nodes_elsewhere }

/-- A cluster with an account, and a node in it that has the requested name. -/
def staffed : Document :=
  (Document.empty.put "cluster_aws_prod"
    (.ofList [("aws_region", .string "eu"), ("name", .string "prod")])).put "node_aws_prod_web"
    (.ofList [("hostname", .string "web"),
      ("rancher_environment_id", .string (Reference.cluster "cluster_aws_prod"))])

def twoMore : NodeRequest :=
  ⟨"prod", none, "web", 2, .ofList [("aws_region", .string "us"), ("size", .string "small")]⟩

theorem change_extends_staffed :
    (twoMore.change Sources.standard staffed).1 = .ok ["web-1", "web-2"] ∧
    ∃ p n, staffed.resolveCluster? "prod" = some (ModuleName.cluster p n) ∧
      ModuleName.kind? (ModuleName.cluster p n) = some (.cluster p) ∧
      twoMore.Extends Sources.standard p n staffed ["web-1", "web-2"]
        (twoMore.change Sources.standard staffed).2 := by
  have hok : (twoMore.change Sources.standard staffed).1 = .ok ["web-1", "web-2"] := by
    decide +kernel
  exact ⟨hok, change_extends (Prod.ext hok rfl)⟩

end NodeRequest

end ClusterLedger
