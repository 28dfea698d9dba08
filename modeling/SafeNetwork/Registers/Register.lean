import SafeNetwork.Protocol.Types
import SafeNetwork.Std.BTreeSet

/-! The spec's register CRDT, not in the source: a Merkle DAG keyed by node hash. -/
namespace SafeNetwork

namespace Register

variable (nodeHash : MerkleDagEntry → EntryHash)

/-- `Register::new`: no entries yet. -/
def new (owner : User) (name : XorName) (tag : UInt64) (permissions : Permissions) : Register :=
  ⟨owner, name, tag, permissions, []⟩

/-- `Register::address`: the register is identified by its name and tag. -/
def address (r : Register) : RegisterAddress := ⟨r.name, r.tag⟩

/-- Some node of `dag` names `h` as a parent. -/
def referenced (dag : List (EntryHash × MerkleDagEntry)) (h : EntryHash) : Bool :=
  dag.any fun p => h ∈ p.2.children

/-- `read()`: the frontier, each entry with its hash. -/
def read (r : Register) : List (EntryHash × Entry) :=
  (r.dag.filter fun p => !referenced r.dag p.1).map fun p => (p.1, p.2.value)

/-- The frontier's hashes as a `BTreeSet`: the parents `write` and `write_merging_branches` take. -/
def frontierHashes (r : Register) : List EntryHash := BTreeSet.ofList ((read r).map Prod.fst)

/-- `check_user_rights`: the owner may do anything, others read, and write with the may-write bit. -/
def checkUserRights (r : Register) (action : Action) (user : User) : Except RegisterError Unit :=
  if user = r.owner then .ok ()
  else match action with
    | .read => .ok ()
    | .write =>
      if mayWrite r.permissions .anyone || mayWrite r.permissions user then .ok ()
      else .error (.accessDenied user)
where
  mayWrite (permissions : Permissions) (user : User) : Bool :=
    (permissions.lookup user).any (·.write)

/-- A node joins the DAG under its hash, unless that hash is there already. -/
def insertNode (dag : List (EntryHash × MerkleDagEntry)) (h : EntryHash) (node : MerkleDagEntry) :
    List (EntryHash × MerkleDagEntry) :=
  if h ∈ dag.map Prod.fst then dag else (h, node) :: dag

/-- `Register::write`: the new node's hash, its op (whose source is taken to be the owner), the register. -/
def write (r : Register) (entry : Entry) (children : List EntryHash) :
    EntryHash × RegisterOp × Register :=
  let node : MerkleDagEntry := ⟨children, entry⟩
  let hash := nodeHash node
  (hash, ⟨⟨r.name, r.tag⟩, node, r.owner, none⟩, { r with dag := insertNode r.dag hash node })

/-- `merge(other)`: the other replica's nodes join, oldest first. -/
def merge (r other : Register) : Register :=
  { r with dag := other.dag.foldr (fun p dag => insertNode dag p.1 p.2) r.dag }

/-- Two DAGs agree when a hash both have keys the same node in each. -/
def Agree (dag dag' : List (EntryHash × MerkleDagEntry)) : Prop :=
  ∀ p ∈ dag, ∀ q ∈ dag', p.1 = q.1 → p = q

/-- The replicas a run reaches: new ones, writes atop the whole frontier, and merges. -/
inductive Reachable : Register → Prop
  | new (owner : User) (name : XorName) (tag : UInt64) (permissions : Permissions) :
      Reachable (new owner name tag permissions)
  | write (r : Register) (entry : Entry) :
      Reachable r → Reachable (r.write nodeHash entry (frontierHashes r)).2.2
  | merge (r other : Register) : Reachable r → Reachable other → Reachable (r.merge other)

/-- Newest first, each node keyed by its hash, under a fresh key, naming only older nodes. -/
def TopoSorted : List (EntryHash × MerkleDagEntry) → Prop
  | [] => True
  | (h, node) :: rest => h = nodeHash node ∧ h ∉ rest.map Prod.fst ∧
      (∀ c ∈ node.children, c ∈ rest.map Prod.fst) ∧ TopoSorted rest

/-- No node of the replica but `node` itself has `node`'s hash. -/
def NoCollision (r : Register) (node : MerkleDagEntry) : Prop :=
  ∀ p ∈ r.dag, nodeHash p.2 = nodeHash node → p.2 = node

variable {nodeHash}

@[simp] theorem referenced_iff {dag : List (EntryHash × MerkleDagEntry)} {h : EntryHash} :
    referenced dag h = true ↔ ∃ p ∈ dag, h ∈ p.2.children := by
  simp [referenced]

theorem mem_read {r : Register} {x : EntryHash × Entry} :
    x ∈ read r ↔
      ∃ node, (x.1, node) ∈ r.dag ∧ node.value = x.2 ∧ referenced r.dag x.1 = false := by
  constructor
  · rintro hx
    obtain ⟨⟨h, node⟩, hp, rfl⟩ := List.mem_map.1 hx
    obtain ⟨hp, hr⟩ := List.mem_filter.1 hp
    exact ⟨node, hp, rfl, by simpa using hr⟩
  · rintro ⟨node, hp, hv, hr⟩
    exact List.mem_map.2 ⟨(x.1, node), List.mem_filter.2 ⟨hp, by simpa using hr⟩, by rw [hv]⟩

theorem mem_frontierHashes {r : Register} {c : EntryHash} :
    c ∈ frontierHashes r ↔ ∃ node, (c, node) ∈ r.dag ∧ referenced r.dag c = false := by
  simp only [frontierHashes, BTreeSet.mem_ofList, List.mem_map, mem_read]
  constructor
  · rintro ⟨⟨_, _⟩, ⟨node, hp, -, hr⟩, rfl⟩
    exact ⟨node, hp, hr⟩
  · rintro ⟨node, hp, hr⟩
    exact ⟨(c, node.value), ⟨node, hp, rfl, hr⟩, rfl⟩

theorem mem_keys_insertNode {dag : List (EntryHash × MerkleDagEntry)} {h c : EntryHash}
    {node : MerkleDagEntry} :
    c ∈ (insertNode dag h node).map Prod.fst ↔ c = h ∨ c ∈ dag.map Prod.fst := by
  unfold insertNode
  split_ifs with hh
  · exact ⟨.inr, fun hc => hc.elim (· ▸ hh) id⟩
  · simp

/-- In a sorted DAG every node is keyed by its hash and names only parents in the DAG. -/
theorem TopoSorted.mem {dag : List (EntryHash × MerkleDagEntry)} (ht : TopoSorted nodeHash dag)
    {p : EntryHash × MerkleDagEntry} (hp : p ∈ dag) :
    p.1 = nodeHash p.2 ∧ ∀ c ∈ p.2.children, c ∈ dag.map Prod.fst := by
  induction dag with
  | nil => cases hp
  | cons q rest ih =>
    obtain ⟨hh, -, hq, ht⟩ := ht
    rcases List.mem_cons.1 hp with rfl | hp
    · exact ⟨hh, fun c hc => List.mem_cons_of_mem _ (hq c hc)⟩
    · exact (ih ht hp).imp_right fun h c hc => List.mem_cons_of_mem _ (h c hc)

/-- A node put atop a sorted DAG under a fresh key is on the new frontier. -/
theorem referenced_cons_self {dag : List (EntryHash × MerkleDagEntry)}
    (ht : TopoSorted nodeHash dag) {h : EntryHash} {node : MerkleDagEntry}
    (hfresh : h ∉ dag.map Prod.fst) (hc : ∀ c ∈ node.children, c ∈ dag.map Prod.fst) :
    referenced ((h, node) :: dag) h = false := by
  refine Bool.eq_false_iff.2 fun href => ?_
  obtain ⟨p, hp, hcp⟩ := referenced_iff.1 href
  rcases List.mem_cons.1 hp with rfl | hp
  · exact hfresh (hc h hcp)
  · exact hfresh ((ht.mem hp).2 h hcp)

/-- The newest node is on the frontier, so a DAG with nodes has a frontier. -/
theorem read_ne_nil {r : Register} (ht : TopoSorted nodeHash r.dag) (hne : r.dag ≠ []) :
    read r ≠ [] := by
  obtain ⟨owner, name, tag, permissions, _ | ⟨⟨h, node⟩, rest⟩⟩ := r
  · exact absurd rfl hne
  obtain ⟨-, hfresh, hchildren, hrest⟩ := ht
  have hx : (h, node.value) ∈ read ⟨owner, name, tag, permissions, (h, node) :: rest⟩ :=
    mem_read.2 ⟨node, List.mem_cons_self _ _, rfl, referenced_cons_self hrest hfresh hchildren⟩
  exact List.ne_nil_of_mem hx

theorem frontierHashes_mem_keys {r : Register} {c : EntryHash} (hc : c ∈ frontierHashes r) :
    c ∈ r.dag.map Prod.fst :=
  let ⟨_, hp, _⟩ := mem_frontierHashes.1 hc
  List.mem_map_of_mem Prod.fst hp

theorem topoSorted_insertNode {dag : List (EntryHash × MerkleDagEntry)} {h : EntryHash}
    {node : MerkleDagEntry} (ht : TopoSorted nodeHash dag) (hh : h = nodeHash node)
    (hc : ∀ c ∈ node.children, c ∈ dag.map Prod.fst) :
    TopoSorted nodeHash (insertNode dag h node) := by
  unfold insertNode
  split_ifs with hmem
  · exact ht
  · exact ⟨hh, hmem, hc, ht⟩

/-- After merging `other` in, the keys are those of both DAGs. -/
theorem mem_keys_foldr {dag : List (EntryHash × MerkleDagEntry)} {c : EntryHash} :
    ∀ {other : List (EntryHash × MerkleDagEntry)},
      c ∈ (other.foldr (fun p dag => insertNode dag p.1 p.2) dag).map Prod.fst ↔
        c ∈ dag.map Prod.fst ∨ c ∈ other.map Prod.fst
  | [] => by simp
  | q :: rest => by
    rw [List.foldr_cons, mem_keys_insertNode, mem_keys_foldr, List.map_cons, List.mem_cons]
    exact or_left_comm

/-- Merging in a sorted replica keeps the DAG sorted. -/
theorem topoSorted_foldr {dag : List (EntryHash × MerkleDagEntry)} (ht : TopoSorted nodeHash dag) :
    ∀ {other : List (EntryHash × MerkleDagEntry)}, TopoSorted nodeHash other →
      TopoSorted nodeHash (other.foldr (fun p dag => insertNode dag p.1 p.2) dag)
  | [], _ => ht
  | (_, _) :: _, ⟨hh, _, hc, hrest⟩ =>
    topoSorted_insertNode (topoSorted_foldr ht hrest) hh fun c hc' => mem_keys_foldr.2 (.inr (hc c hc'))

theorem topoSorted_write {r : Register} (ht : TopoSorted nodeHash r.dag) (entry : Entry) :
    TopoSorted nodeHash (r.write nodeHash entry (frontierHashes r)).2.2.dag :=
  topoSorted_insertNode ht rfl fun _ => frontierHashes_mem_keys

theorem Reachable.topoSorted {r : Register} (h : Reachable nodeHash r) :
    TopoSorted nodeHash r.dag := by
  induction h with
  | new => trivial
  | write r entry _ ih => exact topoSorted_write ih entry
  | merge r other _ _ ihr iho => exact topoSorted_foldr ihr iho

/-- A node written atop the whole frontier is new: were it in the DAG, it would name the frontier. -/
theorem hash_not_mem {r : Register} {entry : Entry}
    (hcol : NoCollision nodeHash r ⟨frontierHashes r, entry⟩) (ht : TopoSorted nodeHash r.dag) :
    nodeHash ⟨frontierHashes r, entry⟩ ∉ r.dag.map Prod.fst := by
  intro hk
  obtain ⟨⟨k, m⟩, hp, hkm⟩ := List.mem_map.1 hk
  obtain rfl : m = ⟨frontierHashes r, entry⟩ := hcol _ hp ((ht.mem hp).1.symm.trans hkm)
  obtain ⟨x, hx⟩ := List.exists_mem_of_ne_nil _ (read_ne_nil ht (List.ne_nil_of_mem hp))
  obtain ⟨node, hxp, -, hxr⟩ := mem_read.1 hx
  have href := referenced_iff.2 ⟨_, hp, mem_frontierHashes.2 ⟨node, hxp, hxr⟩⟩
  exact Bool.false_ne_true (hxr.symm.trans href)

/-- After a write atop the whole frontier, the new node is the frontier. -/
theorem read_write_frontier {r : Register} {entry : Entry}
    (hcol : NoCollision nodeHash r ⟨frontierHashes r, entry⟩) (ht : TopoSorted nodeHash r.dag) :
    read (r.write nodeHash entry (frontierHashes r)).2.2 =
      [(nodeHash ⟨frontierHashes r, entry⟩, entry)] := by
  have hfresh := hash_not_mem hcol ht
  set node : MerkleDagEntry := ⟨frontierHashes r, entry⟩
  have hhead : referenced ((nodeHash node, node) :: r.dag) (nodeHash node) = false :=
    referenced_cons_self ht hfresh fun _ => frontierHashes_mem_keys
  have htail : (r.dag.filter fun p => !referenced ((nodeHash node, node) :: r.dag) p.1) = [] := by
    refine List.filter_eq_nil_iff.2 fun p hp => ?_
    suffices referenced ((nodeHash node, node) :: r.dag) p.1 = true by simp [this]
    cases hr : referenced r.dag p.1
    · exact referenced_iff.2 ⟨_, List.mem_cons_self _ _, mem_frontierHashes.2 ⟨p.2, hp, hr⟩⟩
    · obtain ⟨q, hq, hc⟩ := referenced_iff.1 hr
      exact referenced_iff.2 ⟨q, List.mem_cons_of_mem _ hq, hc⟩
  simp only [write, insertNode, if_neg hfresh, read, List.filter_cons, hhead, Bool.not_false,
    ↓reduceIte, htail, List.map_cons, List.map_nil]

/-! ### Merging replicas -/

theorem mem_insertNode {dag : List (EntryHash × MerkleDagEntry)} {h : EntryHash}
    {node : MerkleDagEntry} {p : EntryHash × MerkleDagEntry} :
    p ∈ insertNode dag h node ↔ p ∈ dag ∨ p = (h, node) ∧ h ∉ dag.map Prod.fst := by
  unfold insertNode
  split_ifs with hh <;> simp [hh, or_comm]

theorem TopoSorted.nodup_keys {dag : List (EntryHash × MerkleDagEntry)}
    (ht : TopoSorted nodeHash dag) : (dag.map Prod.fst).Nodup := by
  induction dag with
  | nil => exact List.nodup_nil
  | cons q rest ih =>
    obtain ⟨-, hq, -, ht⟩ := ht
    exact List.nodup_cons.2 ⟨hq, ih ht⟩

theorem Agree.symm {dag dag' : List (EntryHash × MerkleDagEntry)} (h : Agree dag dag') :
    Agree dag' dag :=
  fun p hp q hq hpq => (h q hq p hp hpq.symm).symm

/-- Merging in an agreeing DAG with unique keys adds exactly its nodes, each once. -/
theorem mem_foldr_insertNode {dag : List (EntryHash × MerkleDagEntry)} :
    ∀ {other : List (EntryHash × MerkleDagEntry)}, (other.map Prod.fst).Nodup → Agree dag other →
      ∀ p, p ∈ other.foldr (fun p dag => insertNode dag p.1 p.2) dag ↔ p ∈ dag ∨ p ∈ other
  | [], _, _, p => by simp
  | q :: rest, hn, ha, p => by
    obtain ⟨hq, hn⟩ := List.nodup_cons.1 hn
    have ih := mem_foldr_insertNode hn fun p hp q' hq' => ha p hp q' (List.mem_cons_of_mem _ hq')
    rw [List.foldr_cons, mem_insertNode, ih, List.mem_cons]
    constructor
    · rintro ((hp | hp) | ⟨rfl, -⟩)
      · exact .inl hp
      · exact .inr (.inr hp)
      · exact .inr (.inl rfl)
    · rintro (hp | rfl | hp)
      · exact .inl (.inl hp)
      -- `p` is new unless a node under its hash is there already: a local one, which is `p`
      -- since the DAGs agree, and not one of `rest`, whose keys miss `p`'s
      · by_cases hk : p.1 ∈ (rest.foldr (fun p dag => insertNode dag p.1 p.2) dag).map Prod.fst
        · obtain ⟨x, hx, hxk⟩ := List.mem_map.1 hk
          rcases (ih x).1 hx with hx | hx
          · exact .inl (.inl (ha x hx p (List.mem_cons_self _ _) hxk ▸ hx))
          · exact absurd (hxk ▸ List.mem_map_of_mem Prod.fst hx) hq
        · exact .inr ⟨rfl, hk⟩
      · exact .inl (.inr hp)

/-- Merging never drops a local node. -/
theorem mem_foldr_of_mem {dag : List (EntryHash × MerkleDagEntry)} {p : EntryHash × MerkleDagEntry}
    (hp : p ∈ dag) :
    ∀ {other : List (EntryHash × MerkleDagEntry)},
      p ∈ other.foldr (fun p dag => insertNode dag p.1 p.2) dag
  | [] => hp
  | _ :: _ => mem_insertNode.2 (.inl (mem_foldr_of_mem hp))

theorem mem_merge {r o : Register} (ho : TopoSorted nodeHash o.dag) (ha : Agree r.dag o.dag)
    (p : EntryHash × MerkleDagEntry) : p ∈ (r.merge o).dag ↔ p ∈ r.dag ∨ p ∈ o.dag :=
  mem_foldr_insertNode ho.nodup_keys ha p

/-- Merging in hashes that are all there already changes nothing. -/
theorem foldr_insertNode_of_keys {dag : List (EntryHash × MerkleDagEntry)} :
    ∀ {other : List (EntryHash × MerkleDagEntry)},
      (∀ c ∈ other.map Prod.fst, c ∈ dag.map Prod.fst) →
        other.foldr (fun p dag => insertNode dag p.1 p.2) dag = dag
  | [], _ => rfl
  | q :: rest, h => by
    rw [List.foldr_cons, foldr_insertNode_of_keys fun c hc => h c (List.mem_cons_of_mem _ hc),
      insertNode, if_pos (h _ (List.mem_cons_self _ _))]

theorem merge_self (r : Register) : r.merge r = r := by
  rw [merge, foldr_insertNode_of_keys fun _ => id]

theorem referenced_congr {dag dag' : List (EntryHash × MerkleDagEntry)}
    (h : ∀ p, p ∈ dag ↔ p ∈ dag') (c : EntryHash) : referenced dag c = referenced dag' c :=
  Bool.eq_iff_iff.2 (by simp only [referenced_iff, h])

/-- The frontier depends only on which nodes the DAG holds. -/
theorem mem_read_congr {r r' : Register} (h : ∀ p, p ∈ r.dag ↔ p ∈ r'.dag)
    (x : EntryHash × Entry) : x ∈ read r ↔ x ∈ read r' := by
  simp only [mem_read, h, referenced_congr h]

/-- Merging two reachable replicas that agree is their union keyed by node hash. -/
theorem merge_union {r o : Register} (hr : Reachable nodeHash r) (ho : Reachable nodeHash o)
    (ha : Agree r.dag o.dag) :
    (∀ p, p ∈ (r.merge o).dag ↔ p ∈ r.dag ∨ p ∈ o.dag) ∧ ((r.merge o).dag.map Prod.fst).Nodup :=
  ⟨mem_merge ho.topoSorted ha, (Reachable.merge r o hr ho).topoSorted.nodup_keys⟩

/-- A register with no entries; one entry `[b]` on it, under a hash that reads the first byte. -/
def blank : Register := new .anyone ⟨List.replicate 32 0, rfl⟩ 0 []

def firstByte (node : MerkleDagEntry) : EntryHash := (node.value.headD 0).toNat

def oneEntry (b : UInt8) : Register := (blank.write firstByte [b] (frontierHashes blank)).2.2

theorem merge_union_oneEntry :
    Reachable firstByte (oneEntry 1) ∧ Reachable firstByte (oneEntry 2) ∧
      Agree (oneEntry 1).dag (oneEntry 2).dag ∧
      (∀ p, p ∈ ((oneEntry 1).merge (oneEntry 2)).dag ↔ p ∈ (oneEntry 1).dag ∨ p ∈ (oneEntry 2).dag) ∧
        (((oneEntry 1).merge (oneEntry 2)).dag.map Prod.fst).Nodup :=
  have h1 : Reachable firstByte (oneEntry 1) := .write _ _ (.new _ _ _ _)
  have h2 : Reachable firstByte (oneEntry 2) := .write _ _ (.new _ _ _ _)
  have ha : Agree (oneEntry 1).dag (oneEntry 2).dag := by unfold Agree; decide
  ⟨h1, h2, ha, merge_union h1 h2 ha⟩

/-- Reachable replicas that agree converge: merging is idempotent, and its frontier commutes and associates. -/
theorem merge_converges {r o q : Register} (hr : Reachable nodeHash r) (ho : Reachable nodeHash o)
    (hq : Reachable nodeHash q) (hro : Agree r.dag o.dag) (hoq : Agree o.dag q.dag)
    (hrq : Agree r.dag q.dag) :
    r.merge r = r ∧
      (∀ x, x ∈ read (r.merge o) ↔ x ∈ read (o.merge r)) ∧
      ∀ x, x ∈ read ((r.merge o).merge q) ↔ x ∈ read (r.merge (o.merge q)) := by
  have hro' := mem_merge ho.topoSorted hro
  have hoq' := mem_merge hq.topoSorted hoq
  have hq' : Agree (r.merge o).dag q.dag := fun p hp x hx h =>
    ((hro' p).1 hp).elim (fun hp => hrq p hp x hx h) (fun hp => hoq p hp x hx h)
  have hr' : Agree r.dag (o.merge q).dag := fun p hp x hx h =>
    ((hoq' x).1 hx).elim (fun hx => hro p hp x hx h) (fun hx => hrq p hp x hx h)
  refine ⟨merge_self r, mem_read_congr fun p => ?_, mem_read_congr fun p => ?_⟩
  · rw [hro', mem_merge hr.topoSorted hro.symm, or_comm]
  · rw [mem_merge hq.topoSorted hq', hro', mem_merge (Reachable.merge o q ho hq).topoSorted hr', hoq',
      or_assoc]

theorem merge_converges_oneEntry :
    Reachable firstByte (oneEntry 1) ∧ Reachable firstByte (oneEntry 2) ∧ Reachable firstByte blank ∧
      Agree (oneEntry 1).dag (oneEntry 2).dag ∧ Agree (oneEntry 2).dag blank.dag ∧
      Agree (oneEntry 1).dag blank.dag ∧
      (oneEntry 1).merge (oneEntry 1) = oneEntry 1 ∧
      (∀ x, x ∈ read ((oneEntry 1).merge (oneEntry 2)) ↔ x ∈ read ((oneEntry 2).merge (oneEntry 1))) ∧
      ∀ x, x ∈ read (((oneEntry 1).merge (oneEntry 2)).merge blank) ↔
        x ∈ read ((oneEntry 1).merge ((oneEntry 2).merge blank)) :=
  have h1 : Reachable firstByte (oneEntry 1) := .write _ _ (.new _ _ _ _)
  have h2 : Reachable firstByte (oneEntry 2) := .write _ _ (.new _ _ _ _)
  have ha : Agree (oneEntry 1).dag (oneEntry 2).dag := by unfold Agree; decide
  have hb : ∀ r : Register, Agree r.dag blank.dag := fun _ _ _ _ h => absurd h (List.not_mem_nil _)
  ⟨h1, h2, .new _ _ _ _, ha, hb _, hb _,
    merge_converges h1 h2 (.new _ _ _ _) ha (hb _) (hb _)⟩

/-! ### The frontier covers the DAG -/

/-- `c` is a parent of `h`: the node under `h` names `c`. -/
def Parent (dag : List (EntryHash × MerkleDagEntry)) (c h : EntryHash) : Prop :=
  ∃ node, (h, node) ∈ dag ∧ c ∈ node.children

theorem Parent.mono {dag dag' : List (EntryHash × MerkleDagEntry)} (h : ∀ p ∈ dag, p ∈ dag')
    {c c' : EntryHash} (hp : Parent dag c c') : Parent dag' c c' :=
  let ⟨node, hn, hc⟩ := hp
  ⟨node, h _ hn, hc⟩

/-- In a sorted DAG every node is on the frontier or, along parent links, below a node that is. -/
theorem exists_frontier_above (owner : User) (name : XorName) (tag : UInt64)
    (permissions : Permissions) :
    ∀ {dag : List (EntryHash × MerkleDagEntry)}, TopoSorted nodeHash dag → ∀ p ∈ dag,
      ∃ x ∈ read ⟨owner, name, tag, permissions, dag⟩, Relation.ReflTransGen (Parent dag) p.1 x.1
  | [], _, _, hp => absurd hp (List.not_mem_nil _)
  | (h, node) :: rest, ⟨_, hfresh, hc, ht⟩, p, hp => by
    have hq : (h, node.value) ∈ read ⟨owner, name, tag, permissions, (h, node) :: rest⟩ :=
      mem_read.2 ⟨node, List.mem_cons_self _ _, rfl, referenced_cons_self ht hfresh hc⟩
    rcases List.mem_cons.1 hp with rfl | hp
    · exact ⟨_, hq, .refl⟩
    obtain ⟨x, hx, hpath⟩ := exists_frontier_above owner name tag permissions ht p hp
    obtain ⟨xnode, hxn, hxv, hxr⟩ := mem_read.1 hx
    have hpath' : Relation.ReflTransGen (Parent ((h, node) :: rest)) p.1 x.1 :=
      Relation.ReflTransGen.mono (fun _ _ => Parent.mono fun _ => List.mem_cons_of_mem _) hpath
    by_cases hxc : x.1 ∈ node.children
    · exact ⟨_, hq, hpath'.tail ⟨node, List.mem_cons_self _ _, hxc⟩⟩
    · refine ⟨x, mem_read.2 ⟨xnode, List.mem_cons_of_mem _ hxn, hxv, ?_⟩, hpath'⟩
      simpa [referenced, hxc] using hxr

/-- Every reachable replica is a well-formed DAG, and each of its entries lies below its frontier. -/
theorem frontier_covers {r : Register} (hr : Reachable nodeHash r) :
    (∀ p ∈ r.dag, p.1 = nodeHash p.2 ∧ ∀ c ∈ p.2.children, c ∈ r.dag.map Prod.fst) ∧
      (r.dag.map Prod.fst).Nodup ∧
      ∀ p ∈ r.dag, ∃ x ∈ read r, Relation.ReflTransGen (Parent r.dag) p.1 x.1 := by
  have ht := hr.topoSorted
  obtain ⟨owner, name, tag, permissions, dag⟩ := r
  exact ⟨fun _ hp => ht.mem hp, ht.nodup_keys, exists_frontier_above owner name tag permissions ht⟩

/-- Entry `[2]` written atop `oneEntry 1`: entry `[1]` is below the frontier. -/
def chainOfTwo : Register := ((oneEntry 1).write firstByte [2] (frontierHashes (oneEntry 1))).2.2

theorem frontier_covers_chainOfTwo :
    Reachable firstByte chainOfTwo ∧ read chainOfTwo = [(2, [2])] ∧
      (∀ p ∈ chainOfTwo.dag, p.1 = firstByte p.2 ∧ ∀ c ∈ p.2.children, c ∈ chainOfTwo.dag.map Prod.fst) ∧
      (chainOfTwo.dag.map Prod.fst).Nodup ∧
      ∀ p ∈ chainOfTwo.dag, ∃ x ∈ read chainOfTwo,
        Relation.ReflTransGen (Parent chainOfTwo.dag) p.1 x.1 :=
  have h : Reachable firstByte chainOfTwo := .write _ _ (.write _ _ (.new _ _ _ _))
  ⟨h, by decide, frontier_covers h⟩

end Register

end SafeNetwork
