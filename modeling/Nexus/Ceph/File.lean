import Mathlib.Data.List.Sort
import Nexus.Ceph
import Nexus.Lib.Record

/-!
# The file of the registry

`ceph-clusters.cfg`, as `lib/pdm-config/src/ceph.rs` reads and writes it. Keys that a version of the program does not
know are put back, so a file that was read and written again has the same in it (`round_trip`). The format of sections
is taken as given (`SectionFormat`).
-/

namespace Nexus.Ceph.File

open Lib Lib.OrderedMap List

/-! ## Sections as records -/

structure CephCluster where
  id : String
  (displayName publicNetwork clusterNetwork : Option String)
  stretchMode : Option Bool
  tiebreakerMon : Option String
  state : Option CephClusterState
  (lastSeenMissing forgotten : Option Int64)

structure CephMember (isAuthid : String → Bool) where
  (id cluster : String)
  kind : CephMemberKind
  (remote node address fingerprint : Option String)
  authid : Option { s : String // isAuthid s = true }
  site : Option String

def stateName : CephClusterState → String
  | .detected => "detected"
  | .unreachable => "unreachable"
  | .gone => "gone"
  | .tombstoned => "tombstoned"

def kindName : CephMemberKind → String
  | .pve => "pve"
  | .standalone => "standalone"

def stateCodec : Codec CephClusterState :=
  .enumeration stateName [.detected, .unreachable, .gone, .tombstoned] (fun s => by cases s <;> decide)
    (fun s t h => by cases s <;> cases t <;> first | rfl | exact absurd h (by decide))

def kindCodec : Codec CephMemberKind :=
  .enumeration kindName [.pve, .standalone] (fun k => by cases k <;> decide)
    (fun k l h => by cases k <;> cases l <;> first | rfl | exact absurd h (by decide))

def clusterRecord : RecordType CephCluster where
  fields c := [("id", some (Codec.string.toValue c.id)), ("display-name", c.displayName.map Codec.string.toValue),
    ("public-network", c.publicNetwork.map Codec.string.toValue),
    ("cluster-network", c.clusterNetwork.map Codec.string.toValue),
    ("stretch-mode", c.stretchMode.map Codec.bool.toValue),
    ("tiebreaker-mon", c.tiebreakerMon.map Codec.string.toValue), ("state", c.state.map stateCodec.toValue),
    ("last-seen-missing", c.lastSeenMissing.map Codec.int64.toValue),
    ("forgotten", c.forgotten.map Codec.int64.toValue)]
  read o := do
    let id ← required .string o "id"
    let displayName ← optional .string o "display-name"
    let publicNetwork ← optional .string o "public-network"
    let clusterNetwork ← optional .string o "cluster-network"
    let stretchMode ← optional .bool o "stretch-mode"
    let tiebreakerMon ← optional .string o "tiebreaker-mon"
    let state ← optional stateCodec o "state"
    let lastSeenMissing ← optional .int64 o "last-seen-missing"
    let forgotten ← optional .int64 o "forgotten"
    return ⟨id, displayName, publicNetwork, clusterNetwork, stretchMode, tiebreakerMon, state,
      lastSeenMissing, forgotten⟩
  keys_nodup t := by simp
  read_eq_some o t := by
    obtain ⟨id, displayName, publicNetwork, clusterNetwork, stretchMode, tiebreakerMon, state, lastSeenMissing,
      forgotten⟩ := t
    simp only [Option.bind_eq_bind, Option.bind_eq_some_iff, required_eq_some, optional_eq_some, Option.pure_def,
      Option.some.injEq, CephCluster.mk.injEq, forall_mem_cons, not_mem_nil, false_imp_iff, implies_true, and_true]
    constructor
    · rintro ⟨_, h₁, _, h₂, _, h₃, _, h₄, _, h₅, _, h₆, _, h₇, _, h₈, _, h₉, rfl, rfl, rfl, rfl, rfl, rfl,
      rfl, rfl, rfl⟩
      exact ⟨h₁, h₂, h₃, h₄, h₅, h₆, h₇, h₈, h₉⟩
    · rintro ⟨h₁, h₂, h₃, h₄, h₅, h₆, h₇, h₈, h₉⟩
      exact ⟨_, h₁, _, h₂, _, h₃, _, h₄, _, h₅, _, h₆, _, h₇, _, h₈, _, h₉, rfl, rfl, rfl, rfl, rfl, rfl, rfl, rfl, rfl⟩

variable (isAuthid : String → Bool)

def memberRecord : RecordType (CephMember isAuthid) where
  fields m := [("id", some (Codec.string.toValue m.id)), ("cluster", some (Codec.string.toValue m.cluster)),
    ("kind", some (kindCodec.toValue m.kind)), ("remote", m.remote.map Codec.string.toValue),
    ("node", m.node.map Codec.string.toValue), ("address", m.address.map Codec.string.toValue),
    ("fingerprint", m.fingerprint.map Codec.string.toValue), ("authid", m.authid.map (Codec.text isAuthid).toValue),
    ("site", m.site.map Codec.string.toValue)]
  read o := do
    let id ← required .string o "id"
    let cluster ← required .string o "cluster"
    let kind ← required kindCodec o "kind"
    let remote ← optional .string o "remote"
    let node ← optional .string o "node"
    let address ← optional .string o "address"
    let fingerprint ← optional .string o "fingerprint"
    let authid ← optional (.text isAuthid) o "authid"
    let site ← optional .string o "site"
    return ⟨id, cluster, kind, remote, node, address, fingerprint, authid, site⟩
  keys_nodup t := by simp
  read_eq_some o t := by
    obtain ⟨id, cluster, kind, remote, node, address, fingerprint, authid, site⟩ := t
    simp only [Option.bind_eq_bind, Option.bind_eq_some_iff, required_eq_some, optional_eq_some, Option.pure_def,
      Option.some.injEq, CephMember.mk.injEq, forall_mem_cons, not_mem_nil, false_imp_iff, implies_true, and_true]
    constructor
    · rintro ⟨_, h₁, _, h₂, _, h₃, _, h₄, _, h₅, _, h₆, _, h₇, _, h₈, _, h₉, rfl, rfl, rfl, rfl, rfl, rfl,
      rfl, rfl, rfl⟩
      exact ⟨h₁, h₂, h₃, h₄, h₅, h₆, h₇, h₈, h₉⟩
    · rintro ⟨h₁, h₂, h₃, h₄, h₅, h₆, h₇, h₈, h₉⟩
      exact ⟨_, h₁, _, h₂, _, h₃, _, h₄, _, h₅, _, h₆, _, h₇, _, h₈, _, h₉, rfl, rfl, rfl, rfl, rfl, rfl, rfl, rfl, rfl⟩

/-! ## Reading and writing -/

structure SectionConfigData where
  sections : OrderedMap String (String × Object)
  order : List String

/-- Sections that are `Valid` are read as they were written. -/
structure SectionFormat where
  parse : String → Except String SectionConfigData
  write : SectionConfigData → Except String String
  Valid : (String → Option (String × Object)) → Prop
  valid_parse : ∀ text d, parse text = .ok d → Valid d.sections.get?
  parse_write : ∀ d, Valid d.sections.get? → d.order.Nodup → (∀ id, id ∈ d.order ↔ (d.sections.get? id).isSome) →
    ∃ text d', write d = .ok text ∧ parse text = .ok d' ∧ ∀ id, d'.sections.get? id = d.sections.get? id

inductive ParseError
  | format (message : String)
  | failedToParse (sectionType id : String)
  | unexpectedSectionType (other : String)

structure CephClustersConfig (isAuthid : String → Bool) where
  clusters : OrderedMap String CephCluster
  members : OrderedMap String (CephMember isAuthid)
  extras : OrderedMap String Object

variable {isAuthid} {id : String}

def unknownKeys {τ : Type*} (r : RecordType τ) (raw : Object) (typed : τ) : Option Object :=
  let extras := r.unknown raw typed
  if extras.keys = ∅ then none else some extras

def insertSome {α : Type*} (m : OrderedMap String α) (id : String) (v : Option α) : OrderedMap String α :=
  v.elim m (m.insert id)

def enter (out : CephClustersConfig isAuthid) (p : String × String × Object) :
    Except ParseError (CephClustersConfig isAuthid) :=
  if p.2.1 = "ceph-cluster" then
    match clusterRecord.read p.2.2 with
    | none => .error (.failedToParse p.2.1 p.1)
    | some cluster => .ok
      { out with
        extras := insertSome out.extras p.1 (unknownKeys clusterRecord p.2.2 cluster)
        clusters := out.clusters.insert p.1 cluster }
  else if p.2.1 = "ceph-member" then
    match (memberRecord isAuthid).read p.2.2 with
    | none => .error (.failedToParse p.2.1 p.1)
    | some member => .ok
      { out with
        extras := insertSome out.extras p.1 (unknownKeys (memberRecord isAuthid) p.2.2 member)
        members := out.members.insert p.1 member }
  else .error (.unexpectedSectionType p.2.1)

def untypedToTyped (cfg : SectionConfigData) : Except ParseError (CephClustersConfig isAuthid) :=
  cfg.sections.entries.foldlM enter ⟨.empty, .empty, .empty⟩

def parse (format : SectionFormat) (raw : String) : Except ParseError (CephClustersConfig isAuthid) :=
  match format.parse raw with
  | .error message => .error (.format message)
  | .ok cfg => untypedToTyped cfg

def mergeExtras (data : CephClustersConfig isAuthid) (id : String) (value : Object) : Object :=
  match data.extras.get? id with
  | some extras => value ∪ extras
  | none => value

def sortedIds {α : Type*} (m : OrderedMap String α) : List String := (m.entries.map Prod.fst).insertionSort (· ≤ ·)

def emit (raw : SectionConfigData) (p : String × String × Object) : SectionConfigData :=
  ⟨raw.sections.insert p.1 p.2, raw.order ++ [p.1]⟩

def sectionsOf {α : Type*} (sectionType : String) (value : String → α → Object) (m : OrderedMap String α) :
    List (String × String × Object) :=
  (sortedIds m).filterMap fun id => (m.get? id).map fun a => (id, sectionType, value id a)

def toRaw (data : CephClustersConfig isAuthid) : SectionConfigData :=
  let raw := (sectionsOf "ceph-cluster" (fun id c => mergeExtras data id (clusterRecord.toObject c))
    data.clusters).foldl
    emit ⟨.empty, []⟩
  (sectionsOf "ceph-member" (fun id m => mergeExtras data id ((memberRecord isAuthid).toObject m)) data.members).foldl
    emit raw

def write (format : SectionFormat) (data : CephClustersConfig isAuthid) : Except String String :=
  format.write (toRaw data)

/-! ## What is read -/

def clusterAt (p : String × Object) : Option CephCluster :=
  if p.1 = "ceph-cluster" then clusterRecord.read p.2 else none

def memberAt (isAuthid : String → Bool) (p : String × Object) : Option (CephMember isAuthid) :=
  if p.1 = "ceph-member" then (memberRecord isAuthid).read p.2 else none

def extrasAt (isAuthid : String → Bool) (p : String × Object) : Option Object :=
  match clusterAt p, memberAt isAuthid p with
  | some cluster, _ => unknownKeys clusterRecord p.2 cluster
  | none, some member => unknownKeys (memberRecord isAuthid) p.2 member
  | none, none => none

def Readable (isAuthid : String → Bool) (p : String × Object) : Prop :=
  (clusterAt p).isSome ∨ (memberAt isAuthid p).isSome

def stored (out : CephClustersConfig isAuthid) (p : String × String × Object) : CephClustersConfig isAuthid :=
  ⟨insertSome out.clusters p.1 (clusterAt p.2), insertSome out.members p.1 (memberAt isAuthid p.2),
    insertSome out.extras p.1 (extrasAt isAuthid p.2)⟩

variable {out out' : CephClustersConfig isAuthid} {p : String × String × Object} {cfg : SectionConfigData}

theorem memberAt_of_cluster {p} (h : p.1 = "ceph-cluster") : memberAt isAuthid p = none :=
  if_neg (by rw [h]; decide)

theorem clusterAt_of_member {p} (h : p.1 = "ceph-member") : clusterAt p = none :=
  if_neg (by rw [h]; decide)

theorem enter_eq_ok : enter out p = .ok out' ↔ Readable isAuthid p.2 ∧ out' = stored out p := by
  obtain ⟨id, sectionType, value⟩ := p
  unfold enter Readable stored extrasAt
  by_cases hclus : sectionType = "ceph-cluster"
  · subst hclus
    rw [memberAt_of_cluster (p := ("ceph-cluster", value)) rfl]
    cases h : clusterRecord.read value <;> simp [clusterAt, h, insertSome, eq_comm]
  · by_cases hmember : sectionType = "ceph-member"
    · subst hmember
      rw [clusterAt_of_member (p := ("ceph-member", value)) rfl]
      cases h : (memberRecord isAuthid).read value <;> simp [memberAt, h, insertSome, eq_comm]
    · simp [clusterAt, memberAt, hclus, hmember]

theorem foldlM_enter_eq_ok : ∀ (l : List (String × String × Object)) {out out' : CephClustersConfig isAuthid},
    l.foldlM enter out = .ok out' ↔ (∀ p ∈ l, Readable isAuthid p.2) ∧ out' = l.foldl stored out
  | [], out, out' => by
    simp only [foldlM_nil, foldl_nil, not_mem_nil, false_imp_iff, implies_true, true_and]
    exact ⟨fun h => (Except.ok.inj h).symm, fun h => congrArg Except.ok h.symm⟩
  | p :: l, out, out' => by
    rw [foldlM_cons, foldl_cons, forall_mem_cons]
    constructor
    · intro h
      cases hp : enter out p with
      | error =>
        rw [hp] at h
        cases h
      | ok =>
        rw [hp] at h
        obtain ⟨hread, rfl⟩ := enter_eq_ok.mp hp
        obtain ⟨hall, rfl⟩ := (foldlM_enter_eq_ok l).mp h
        exact ⟨⟨hread, hall⟩, rfl⟩
    · rintro ⟨⟨hp, hl⟩, rfl⟩
      rw [enter_eq_ok.mpr ⟨hp, rfl⟩]
      exact (foldlM_enter_eq_ok l).mpr ⟨hl, rfl⟩

theorem get?_insertSome {α : Type*} (m : OrderedMap String α) (id k : String) (v : Option α) :
    (insertSome m id v).get? k = if k = id then v.or (m.get? k) else m.get? k := by
  cases v with
  | none => simp [insertSome]
  | some => simp [insertSome, get?_insert]

theorem get?_foldl_insertSome {α β : Type*} (f : β → Option α) (k : String) : ∀ {l : List (String × β)},
    (l.map Prod.fst).Nodup → ∀ m, (l.foldl (fun m p => insertSome m p.1 (f p.2)) m).get? k =
      ((l.lookup k).bind f).or (m.get? k)
  | [], _, m => rfl
  | p :: l, hnd, m => by
    obtain ⟨hp, hl⟩ := nodup_cons.mp hnd
    rw [foldl_cons, get?_foldl_insertSome f k hl, get?_insertSome, lookup_cons]
    by_cases hk : k = p.1
    · -- the name does not come again
      have latest : l.lookup k = none := by
        rw [lookup_eq_none_iff]
        intro q hq
        have hne : k ≠ q.1 := fun he => hp (by rw [← hk, he]; exact mem_map_of_mem hq)
        simpa using hne
      rw [latest, if_pos hk, beq_iff_eq.mpr hk]
      rfl
    · rw [if_neg hk, beq_false_of_ne hk]

theorem foldl_stored : ∀ (l : List (String × String × Object)) (out : CephClustersConfig isAuthid),
    l.foldl stored out = ⟨l.foldl (fun m p => insertSome m p.1 (clusterAt p.2)) out.clusters,
      l.foldl (fun m p => insertSome m p.1 (memberAt isAuthid p.2)) out.members,
      l.foldl (fun m p => insertSome m p.1 (extrasAt isAuthid p.2)) out.extras⟩
  | [], _ => rfl
  | p :: l, out => by
    rw [foldl_cons, foldl_stored l]
    rfl

structure Represents (sections : String → Option (String × Object)) (config : CephClustersConfig isAuthid) : Prop where
  readable : ∀ id p, sections id = some p → Readable isAuthid p
  clusters : ∀ id, config.clusters.get? id = (sections id).bind clusterAt
  members : ∀ id, config.members.get? id = (sections id).bind (memberAt isAuthid)
  extras : ∀ id, config.extras.get? id = (sections id).bind (extrasAt isAuthid)

theorem represents_of_untypedToTyped {config : CephClustersConfig isAuthid}
    (h : untypedToTyped cfg = .ok config) : Represents cfg.sections.get? config := by
  obtain ⟨hread, rfl⟩ := (foldlM_enter_eq_ok _).mp h
  have hkeys := cfg.sections.keys_nodup
  refine ⟨fun id p hp => hread _ (get?_eq_some.mp hp), fun id => ?_, fun id => ?_, fun id => ?_⟩
  · rw [foldl_stored, get?_foldl_insertSome _ _ hkeys]
    exact Option.or_none
  · rw [foldl_stored, get?_foldl_insertSome _ _ hkeys]
    exact Option.or_none
  · rw [foldl_stored, get?_foldl_insertSome _ _ hkeys]
    exact Option.or_none

theorem exists_untypedToTyped (h : ∀ id p, cfg.sections.get? id = some p → Readable isAuthid p) :
    ∃ config : CephClustersConfig isAuthid, untypedToTyped cfg = .ok config :=
  ⟨_, (foldlM_enter_eq_ok _).mpr ⟨fun p hp => h p.1 p.2 (get?_eq_some.mpr hp), rfl⟩⟩

/-! ## What is written -/

variable {config config' : CephClustersConfig isAuthid}

theorem mem_sortedIds {α : Type*} {m : OrderedMap String α} : id ∈ sortedIds m ↔ (m.get? id).isSome := by
  rw [sortedIds, mem_insertionSort, mem_map, Option.isSome_iff_exists]
  constructor
  · rintro ⟨p, hp, rfl⟩
    exact ⟨p.2, get?_eq_some.mpr hp⟩
  · rintro ⟨v, hv⟩
    exact ⟨(id, v), get?_eq_some.mp hv, rfl⟩

theorem nodup_sortedIds {α : Type*} (m : OrderedMap String α) : (sortedIds m).Nodup :=
  (perm_insertionSort _ _).nodup_iff.mpr m.keys_nodup

theorem sortedIds_congr {α : Type*} {m m' : OrderedMap String α} (h : ∀ id, m.get? id = m'.get? id) :
    sortedIds m = sortedIds m' := by
  have hperm : (sortedIds m).Perm (sortedIds m') :=
    (perm_ext_iff_of_nodup (nodup_sortedIds m) (nodup_sortedIds m')).mpr fun id => by
      rw [mem_sortedIds, mem_sortedIds, h]
  exact hperm.eq_of_pairwise (fun _ _ _ _ => le_antisymm) (pairwise_insertionSort _ _)
    (pairwise_insertionSort _ _)

section

variable {α : Type*} {sectionType : String} {value value' : String → α → Object} {m m' : OrderedMap String α}

theorem map_fst_sectionsOf : (sectionsOf sectionType value m).map Prod.fst = sortedIds m := by
  have hsome : ∀ id ∈ sortedIds m, ((m.get? id).map fun a => (id, sectionType, value id a)).map Prod.fst = some id := by
    intro id hid
    obtain ⟨a, ha⟩ := Option.isSome_iff_exists.mp (mem_sortedIds.mp hid)
    rw [ha]
    rfl
  rw [sectionsOf, map_filterMap, filterMap_congr hsome, filterMap_some]

theorem lookup_sectionsOf (id : String) :
    (sectionsOf sectionType value m).lookup id = (m.get? id).map fun a => (sectionType, value id a) := by
  have hkeys : ((sectionsOf sectionType value m).map Prod.fst).Nodup := by
    rw [map_fst_sectionsOf]
    exact nodup_sortedIds m
  refine Option.ext fun p => ?_
  rw [lookup_eq_some_iff_mem hkeys, sectionsOf, mem_filterMap]
  simp only [Option.map_eq_some_iff]
  constructor
  · rintro ⟨id, -, a, ha, h⟩
    cases h
    exact ⟨a, ha, rfl⟩
  · rintro ⟨a, ha, rfl⟩
    exact ⟨id, mem_sortedIds.mpr (by rw [ha]; rfl), a, ha, rfl⟩

theorem sectionsOf_congr (hm : ∀ id, m.get? id = m'.get? id) (hvalue : ∀ id a, value id a = value' id a) :
    sectionsOf sectionType value m = sectionsOf sectionType value' m' := by
  unfold sectionsOf
  rw [sortedIds_congr hm]
  simp only [hm, hvalue]

theorem foldl_emit : ∀ (l : List (String × String × Object)) (raw : SectionConfigData),
    l.foldl emit raw = ⟨l.foldl (fun m p => m.insert p.1 p.2) raw.sections, raw.order ++ l.map Prod.fst⟩
  | [], raw => by simp
  | p :: l, raw => by
    rw [foldl_cons, foldl_emit l]
    simp [emit]

theorem get?_foldl_emit (raw : SectionConfigData) (id : String) :
    ((sectionsOf sectionType value m).foldl emit raw).sections.get? id =
      ((m.get? id).map fun a => (sectionType, value id a)).or (raw.sections.get? id) := by
  have hkeys : ((sectionsOf sectionType value m).map Prod.fst).Nodup := by
    rw [map_fst_sectionsOf]
    exact nodup_sortedIds m
  have hfold := get?_foldl_change (fun p _ => p) id hkeys raw.sections
  rw [foldl_emit]
  rw [lookup_sectionsOf, Option.map_id'] at hfold
  exact hfold

end

theorem mergeExtras_eq (id) (value) : mergeExtras config id value = value ∪ (config.extras.get? id).getD ∅ := by
  unfold mergeExtras
  cases config.extras.get? id with
  | none => exact Finmap.union_empty.symm
  | some => rfl

theorem get?_toRaw (id) : (toRaw config).sections.get? id =
    ((config.members.get? id).map fun m =>
      ("ceph-member", mergeExtras config id ((memberRecord isAuthid).toObject m))).or
      ((config.clusters.get? id).map fun c => ("ceph-cluster", mergeExtras config id (clusterRecord.toObject c))) := by
  rw [toRaw, get?_foldl_emit, get?_foldl_emit]
  exact congrArg (Option.or _) Option.or_none

theorem order_toRaw : (toRaw config).order = sortedIds config.clusters ++ sortedIds config.members := by
  rw [toRaw, foldl_emit, foldl_emit, map_fst_sectionsOf, map_fst_sectionsOf, nil_append]

theorem order_toRaw_exact (h : ∀ id, (config.clusters.get? id).isSome → config.members.get? id = none) :
    (toRaw config).order.Nodup ∧ ∀ id, id ∈ (toRaw config).order ↔ ((toRaw config).sections.get? id).isSome := by
  rw [order_toRaw]
  constructor
  · refine nodup_append.mpr ⟨nodup_sortedIds _, nodup_sortedIds _, ?_⟩
    rintro id cluster _ member rfl
    rw [mem_sortedIds] at cluster member
    rw [h id cluster] at member
    cases member
  · intro id
    rw [mem_append, mem_sortedIds, mem_sortedIds, get?_toRaw, Option.isSome_or, Option.isSome_map, Option.isSome_map,
      Bool.or_eq_true, or_comm]

/-- The order of the sections does not count. -/
structure Same (config config' : CephClustersConfig isAuthid) : Prop where
  clusters : ∀ id, config.clusters.get? id = config'.clusters.get? id
  members : ∀ id, config.members.get? id = config'.members.get? id
  extras : ∀ id, config.extras.get? id = config'.extras.get? id

theorem toRaw_congr (h : Same config config') : toRaw config = toRaw config' := by
  have hmerge : ∀ id value, mergeExtras config id value = mergeExtras config' id value := fun id value => by
    rw [mergeExtras_eq, mergeExtras_eq, h.extras]
  unfold toRaw
  rw [sectionsOf_congr h.clusters fun id c => hmerge id _, sectionsOf_congr h.members fun id m => hmerge id _]

/-! ## Back and forth -/

section

variable {format : SectionFormat} {sections : String → Option (String × Object)}

theorem parse_eq_ok {text} : parse format text = .ok config ↔
    ∃ cfg, format.parse text = .ok cfg ∧ untypedToTyped cfg = .ok config := by
  unfold parse
  cases format.parse text with
  | error => simp
  | ok => simp

theorem unknownKeys_getD {τ : Type*} (r : RecordType τ) (o) (t) : (unknownKeys r o t).getD ∅ = r.unknown o t := by
  unfold unknownKeys
  simp only
  split
  · next h =>
    have none : ∀ k, k ∉ r.unknown o t := fun k hk => Finset.notMem_empty k (h ▸ Finmap.mem_keys.mpr hk)
    refine Finmap.ext_lookup fun k => ?_
    rw [Finmap.lookup_eq_none.mpr (none k)]
    rfl
  · rfl

theorem Represents.disjoint (h : Represents sections config)
    (hclus : (config.clusters.get? id).isSome) : config.members.get? id = none := by
  rw [h.clusters] at hclus
  rw [h.members]
  cases hp : sections id with
  | none => rfl
  | some p =>
    rw [hp, Option.bind_some] at hclus
    by_cases htype : p.1 = "ceph-cluster"
    · exact memberAt_of_cluster htype
    · rw [clusterAt, if_neg htype] at hclus
      cases hclus

theorem merge_unknownKeys {τ : Type*} {r : RecordType τ} {o t} (hread : r.read o = some t)
    (extras : config.extras.get? id = unknownKeys r o t) : mergeExtras config id (r.toObject t) = o := by
  rw [mergeExtras_eq, extras, unknownKeys_getD]
  exact r.union_unknown hread

theorem Represents.get?_toRaw (h : Represents sections config) (id) :
    (toRaw config).sections.get? id = sections id := by
  have hclust := h.clusters id
  have members := h.members id
  have extras := h.extras id
  rw [File.get?_toRaw]
  cases hp : sections id with
  | none =>
    rw [hp] at hclust members
    rw [hclust, members]
    rfl
  | some p =>
    obtain ⟨sectionType, value⟩ := p
    rw [hp, Option.bind_some] at hclust members extras
    obtain hclus | hmember := h.readable id _ hp
    · obtain ⟨cluster, hclus⟩ := Option.isSome_iff_exists.mp hclus
      obtain ⟨htype, hread⟩ := Option.ite_none_right_eq_some.mp hclus
      have hkept : config.extras.get? id = unknownKeys clusterRecord value cluster := by
        rw [extras, extrasAt, hclus]
      rw [hclust, members, memberAt_of_cluster htype, hclus]
      simp only [Option.map_none, Option.none_or, Option.map_some, merge_unknownKeys hread hkept]
      obtain rfl : sectionType = "ceph-cluster" := htype
      rfl
    · obtain ⟨member, hmember⟩ := Option.isSome_iff_exists.mp hmember
      obtain ⟨htype, hread⟩ := Option.ite_none_right_eq_some.mp hmember
      have hkept : config.extras.get? id = unknownKeys (memberRecord isAuthid) value member := by
        rw [extras, extrasAt, clusterAt_of_member htype, hmember]
      rw [members, hmember]
      simp only [Option.map_some, Option.some_or, merge_unknownKeys hread hkept]
      obtain rfl : sectionType = "ceph-member" := htype
      rfl

theorem Represents.same (h : Represents sections config) (h' : Represents sections config') : Same config config' :=
  ⟨fun id => (h.clusters id).trans (h'.clusters id).symm, fun id => (h.members id).trans (h'.members id).symm,
    fun id => (h.extras id).trans (h'.extras id).symm⟩

theorem exists_write_parse (hval : format.Valid (toRaw config).sections.get?)
    (hdisj : ∀ id, (config.clusters.get? id).isSome → config.members.get? id = none)
    (hread : ∀ id p, (toRaw config).sections.get? id = some p → Readable isAuthid p) :
    ∃ (text : String) (config' : CephClustersConfig isAuthid), write format config = .ok text ∧
      parse format text = .ok config' ∧ Represents (toRaw config).sections.get? config' := by
  obtain ⟨hnd, horder⟩ := order_toRaw_exact hdisj
  obtain ⟨text, d, hwr, hparse, hsame⟩ := format.parse_write _ hval hnd horder
  have hget : d.sections.get? = (toRaw config).sections.get? := funext hsame
  rw [← hget] at hread ⊢
  obtain ⟨config', htyped⟩ := exists_untypedToTyped hread
  exact ⟨text, config', hwr, parse_eq_ok.mpr ⟨d, hparse, htyped⟩, represents_of_untypedToTyped htyped⟩

/-- Unknown keys say nothing about a field that is not set. -/
structure Storable (format : SectionFormat) (config : CephClustersConfig isAuthid) : Prop where
  disjoint : ∀ id, (config.clusters.get? id).isSome → config.members.get? id = none
  clusters : ∀ id c, config.clusters.get? id = some c → ∀ k, (k, none) ∈ clusterRecord.fields c →
    Holds ((config.extras.get? id).getD ∅) (k, none)
  members : ∀ id m, config.members.get? id = some m → ∀ k, (k, none) ∈ (memberRecord isAuthid).fields m →
    Holds ((config.extras.get? id).getD ∅) (k, none)
  valid : format.Valid (toRaw config).sections.get?

def remainingExtras (config : CephClustersConfig isAuthid) (id : String) : Option Object :=
  match config.clusters.get? id, config.members.get? id with
  | some c, _ => unknownKeys clusterRecord ((config.extras.get? id).getD ∅) c
  | none, some m => unknownKeys (memberRecord isAuthid) ((config.extras.get? id).getD ∅) m
  | none, none => none

theorem Storable.sectionAt (h : Storable format config) (id) :
    ((toRaw config).sections.get? id).bind clusterAt = config.clusters.get? id ∧
      ((toRaw config).sections.get? id).bind (memberAt isAuthid) = config.members.get? id ∧
      ((toRaw config).sections.get? id).bind (extrasAt isAuthid) = remainingExtras config id := by
  have unknown : ∀ {τ : Type} (r : RecordType τ) (t : τ),
      unknownKeys r (r.toObject t ∪ (config.extras.get? id).getD ∅) t =
        unknownKeys r ((config.extras.get? id).getD ∅) t := fun r t => by
    simp only [unknownKeys, r.unknown_union]
  rw [get?_toRaw]
  simp only [mergeExtras_eq, remainingExtras]
  cases hclus : config.clusters.get? id with
  | some c =>
    have hread := clusterRecord.read_union (h.clusters id c hclus)
    have hclus' : clusterAt ("ceph-cluster", clusterRecord.toObject c ∪ (config.extras.get? id).getD ∅) =
      some c := hread
    rw [h.disjoint id (by rw [hclus]; rfl)]
    simp [extrasAt, hclus', unknown, memberAt_of_cluster]
  | none =>
    cases hmember : config.members.get? id with
    | some m =>
      have hread := (memberRecord isAuthid).read_union (h.members id m hmember)
      have hmember' : memberAt isAuthid ("ceph-member",
        (memberRecord isAuthid).toObject m ∪ (config.extras.get? id).getD ∅) = some m := hread
      simp [extrasAt, hmember', unknown, clusterAt_of_member]
    | none => exact ⟨rfl, rfl, rfl⟩

theorem Storable.readable (h : Storable format config) {p}
    (hp : (toRaw config).sections.get? id = some p) : Readable isAuthid p := by
  obtain ⟨cluster, member, -⟩ := h.sectionAt id
  rw [hp, Option.bind_some] at cluster member
  rw [Readable, cluster, member]
  have hsome : ((toRaw config).sections.get? id).isSome := by rw [hp]; rfl
  rw [get?_toRaw, Option.isSome_or, Option.isSome_map, Option.isSome_map, Bool.or_eq_true] at hsome
  exact hsome.symm

end

/-- **The file holds what it is given.** It has the same in it after it was read and written, what is in memory is read
back, and the order of the maps does not matter. -/
theorem round_trip (isAuthid : String → Bool) (format : SectionFormat) :
    (∀ (text : String) (config : CephClustersConfig isAuthid), parse format text = .ok config →
      ∃ text' config', write format config = .ok text' ∧ parse format text' = .ok config' ∧ Same config config') ∧
    (∀ config : CephClustersConfig isAuthid, Storable format config →
      ∃ text config', write format config = .ok text ∧ parse format text = .ok config' ∧
        (∀ id, config'.clusters.get? id = config.clusters.get? id) ∧
        (∀ id, config'.members.get? id = config.members.get? id) ∧
        ∀ id, config'.extras.get? id = remainingExtras config id) ∧
    ∀ config config' : CephClustersConfig isAuthid, Same config config' →
      write format config = write format config' := by
  refine ⟨fun text config hparse => ?_, fun config h => ?_, fun config config' h => ?_⟩
  · obtain ⟨d, hd, htyped⟩ := parse_eq_ok.mp hparse
    have hrep := represents_of_untypedToTyped htyped
    have hget : (toRaw config).sections.get? = d.sections.get? := funext hrep.get?_toRaw
    have hval : format.Valid (toRaw config).sections.get? := hget ▸ format.valid_parse text d hd
    obtain ⟨text', config', hwr, hparse', hrep'⟩ := exists_write_parse hval (fun _ => hrep.disjoint)
      (hget ▸ hrep.readable)
    rw [hget] at hrep'
    exact ⟨text', config', hwr, hparse', hrep.same hrep'⟩
  · obtain ⟨text, config', hwr, hparse, hrep⟩ := exists_write_parse h.valid h.disjoint fun _ _ => h.readable
    exact ⟨text, config', hwr, hparse, fun id => (hrep.clusters id).trans (h.sectionAt id).1,
      fun id => (hrep.members id).trans (h.sectionAt id).2.1, fun id => (hrep.extras id).trans (h.sectionAt id).2.2⟩
  · rw [write, write, toRaw_congr h]

/-! ## A file with a key that is not known -/

def Sample.cluster : String × Object :=
  ("ceph-cluster", ((∅ : Object).insert "id" (.string "4b4f7f8e")).insert "future-field" (.string "hello"))

def Sample.data : SectionConfigData := ⟨OrderedMap.empty.insert "4b4f7f8e" Sample.cluster, ["4b4f7f8e"]⟩

def Sample.text : String := "ceph-cluster: 4b4f7f8e\n\tfuture-field hello\n"

def Sample.render (sections : String → Option (String × Object)) (id : String) : String :=
  match sections id with
  | some (sectionType, value) => sectionType ++ ": " ++ id ++ "\n\tfuture-field " ++
    ((value.lookup "future-field").bind Value.asStr).getD "" ++ "\n"
  | none => ""

theorem Sample.get?_data : (Sample.data.sections.get? id).isSome ↔ id = "4b4f7f8e" := by
  rw [Sample.data, get?_insert]
  by_cases hid : id = "4b4f7f8e"
  · simp [hid]
  · rw [if_neg hid]
    exact iff_of_false Bool.false_ne_true hid

def Sample.format : SectionFormat where
  parse text := if text = Sample.text then .ok Sample.data else .error "no such file"
  write d := .ok (String.join (d.order.map (Sample.render d.sections.get?)))
  Valid sections := sections = Sample.data.sections.get?
  valid_parse text d h := by
    split at h
    · rw [Except.ok.inj h]
    · cases h
  parse_write d h hnd horder := by
    have only : d.order = ["4b4f7f8e"] := by
      refine perm_singleton.mp ((perm_ext_iff_of_nodup hnd (nodup_singleton _)).mpr fun id => ?_)
      rw [horder, h, Sample.get?_data, mem_singleton]
    refine ⟨Sample.text, Sample.data, ?_, if_pos rfl, fun id => (congrFun h id).symm⟩
    rw [only, h]
    decide

theorem round_trip_sample : ∃ config config' : CephClustersConfig fun _ => false,
    parse Sample.format Sample.text = .ok config ∧ (config.extras.get? "4b4f7f8e").isSome ∧
      (∃ text, write Sample.format config = .ok text ∧ parse Sample.format text = .ok config') ∧
        Same config config' := by
  have hget : ∀ id p, Sample.data.sections.get? id = some p → id = "4b4f7f8e" ∧ p = Sample.cluster := by
    intro id p hp
    rw [Sample.data, get?_insert] at hp
    split at hp
    · next hid => exact ⟨hid, (Option.some.inj hp).symm⟩
    · cases hp
  have cluster : (clusterAt Sample.cluster).isSome := by decide
  have hread : ∀ id p, Sample.data.sections.get? id = some p → Readable (fun _ => false) p := fun id p hp => by
    rw [(hget id p hp).2]
    exact .inl cluster
  obtain ⟨config, htyped⟩ := exists_untypedToTyped hread
  have hdata : Sample.format.parse Sample.text = .ok Sample.data := by simp [Sample.format]
  have hparse := parse_eq_ok.mpr ⟨Sample.data, hdata, htyped⟩
  have extras : (config.extras.get? "4b4f7f8e").isSome := by
    rw [(represents_of_untypedToTyped htyped).extras]
    decide
  obtain ⟨text, config', hwr, hparse', hsame⟩ := (round_trip (fun _ => false) Sample.format).1 _ config hparse
  exact ⟨config, config', hparse, extras, ⟨text, hwr, hparse'⟩, hsame⟩

end Nexus.Ceph.File
