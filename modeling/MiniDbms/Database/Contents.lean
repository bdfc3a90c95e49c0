import MiniDbms.Lib.Ownership
import MiniDbms.Index.HashIndexChanges
import MiniDbms.Storage.HeapFileChanges

/-!
# The parts of a database

A database consists of page 0, of heap files and of hash indexes. `Parts` are the bytes of page 0,
the first pages of the heap files and the header pages of the indexes, `Contents` is what they hold.
`StorageHolds h s c`: the pages `h` contain these parts, and every page belongs to exactly one of
them. A change of one part leaves the others alone (`StorageHolds.changeHeap`,
`StorageHolds.changeIndex`); parts are added and removed (`addTable`, `addIndex`, `removeTable`,
`removeIndex`).
-/

namespace MiniDbms

open Lib PagedProgram HashIndex HeapFile

/-- What the heap files and the indexes hold, by the first page and by the header page. -/
@[ext] structure Contents where
  chain : PageId → Chain
  buckets : PageId → Buckets

/-- Page 0, and the heap files and the indexes that there are. -/
structure Parts where
  catalogPage : PageData
  tables : PageId → Prop
  indexes : PageId → Prop

/-- What a page can belong to. -/
inductive Owner where
  | catalog
  | table (firstPageId : PageId)
  | index (header : PageId)
  deriving DecidableEq

namespace Parts

def owners (s : Parts) : Owner → Prop
  | .catalog => True
  | .table p => s.tables p
  | .index x => s.indexes x

def addTable (s : Parts) (p : PageId) : Parts := { s with tables := fun q => s.tables q ∨ q = p }

def addIndex (s : Parts) (x : PageId) : Parts := { s with indexes := fun y => s.indexes y ∨ y = x }

end Parts

namespace Contents

/-- The pages of each part. -/
def own (c : Contents) : Owner → List PageId
  | .catalog => [headerPageId]
  | .table p => (c.chain p).ids
  | .index x => (c.buckets x).pages x

def setChain (c : Contents) (p : PageId) (chain : Chain) : Contents :=
  { c with chain := Function.update c.chain p chain }

def setBuckets (c : Contents) (x : PageId) (b : Buckets) : Contents :=
  { c with buckets := Function.update c.buckets x b }

variable {c : Contents} {p q x y : PageId} {chain : Chain} {b : Buckets}

@[simp] theorem buckets_setChain : (c.setChain p chain).buckets = c.buckets := rfl
@[simp] theorem chain_setBuckets : (c.setBuckets x b).chain = c.chain := rfl

@[simp] theorem chain_setChain_self : (c.setChain p chain).chain p = chain := by
  simp [setChain]

theorem chain_setChain_of_ne (hq : q ≠ p) : (c.setChain p chain).chain q = c.chain q := by
  simp [setChain, hq]

@[simp] theorem buckets_setBuckets_self : (c.setBuckets x b).buckets x = b := by
  simp [setBuckets]

theorem buckets_setBuckets_of_ne (hy : y ≠ x) : (c.setBuckets x b).buckets y = c.buckets y := by
  simp [setBuckets, hy]

theorem setBuckets_setBuckets {b' : Buckets} :
    (c.setBuckets x b).setBuckets x b' = c.setBuckets x b' := by
  simp [setBuckets]

theorem own_setChain : (c.setChain p chain).own = Function.update c.own (.table p) chain.ids := by
  funext o
  cases o with
  | catalog => rfl
  | index x => rfl
  | table q =>
    by_cases hq : q = p
    · subst hq
      simp [own]
    · have hne : Owner.table q ≠ .table p := fun he => hq (Owner.table.inj he)
      rw [Function.update_of_ne hne]
      simp only [own, chain_setChain_of_ne hq]

theorem own_setBuckets : (c.setBuckets x b).own = Function.update c.own (.index x) (b.pages x) := by
  funext o
  cases o with
  | catalog => rfl
  | table p => rfl
  | index y =>
    by_cases hy : y = x
    · subst hy
      simp [own]
    · have hne : Owner.index y ≠ .index x := fun he => hy (Owner.index.inj he)
      rw [Function.update_of_ne hne]
      simp only [own, buckets_setBuckets_of_ne hy]

end Contents

/-- The pages contain the parts, and each page belongs to one of them. -/
structure StorageHolds (h : Pages) (s : Parts) (c : Contents) : Prop where
  catalogPage : h.page headerPageId = some s.catalogPage
  heap : ∀ p, s.tables p → HeapHolds h p (c.chain p)
  index : ∀ x, s.indexes x → IndexHolds h x (c.buckets x)
  owned : Owned h s.owners c.own

namespace StorageHolds

variable {h h' : Pages} {s s' : Parts} {c : Contents} {p q x : PageId} {o : Owner} {l : List PageId}
  {chain : Chain} {b : Buckets} {d : PageData}

theorem of_page_eq (hs : StorageHolds h s c) (hpage : h'.page = h.page) : StorageHolds h' s c where
  catalogPage := by rw [hpage, hs.catalogPage]
  heap p hp := (hs.heap p hp).congr fun q _ => by rw [hpage]
  index x hx := (hs.index x hx).congr fun q _ => by rw [hpage]
  owned := hs.owned.congr (fun p => by rw [hpage]) (fun _ => Iff.rfl) fun _ _ => rfl

/-- The same parts, described otherwise. -/
theorem congr_parts (hs : StorageHolds h s c) (hpage : s'.catalogPage = s.catalogPage)
    (htables : ∀ p, s'.tables p ↔ s.tables p) (hindexes : ∀ x, s'.indexes x ↔ s.indexes x) :
    StorageHolds h s' c where
  catalogPage := by rw [hpage, hs.catalogPage]
  heap p hp := hs.heap p ((htables p).mp hp)
  index x hx := hs.index x ((hindexes x).mp hx)
  owned := hs.owned.congr (fun _ => Iff.rfl)
    (fun o => by
      cases o with
      | catalog => exact Iff.rfl
      | table p => exact htables p
      | index x => exact hindexes x) fun _ _ => rfl

/-- The other parts after an operation of the owner `o`. -/
theorem others (hs : StorageHolds h s c) (ho : s.owners o) (hf : Footprint h (c.own o) h' l) :
    (o ≠ .catalog → h'.page headerPageId = some s.catalogPage) ∧
      (∀ p, s.tables p → o ≠ .table p → HeapHolds h' p (c.chain p)) ∧
      ∀ x, s.indexes x → o ≠ .index x → IndexHolds h' x (c.buckets x) := by
  refine ⟨fun hne => ?_, fun p hp hne => (hs.heap p hp).congr ?_,
    fun x hx hne => (hs.index x hx).congr ?_⟩
  · have hj : s.owners .catalog := trivial
    rw [← hs.catalogPage]
    exact hs.owned.page_eq ho hf hj hne.symm _ List.mem_cons_self
  · have hj : s.owners (.table p) := hp
    exact hs.owned.page_eq ho hf hj hne.symm
  · have hj : s.owners (.index x) := hx
    exact hs.owned.page_eq ho hf hj hne.symm

theorem changeHeap {rid : RecordID} {r : Option Bytes} (hs : StorageHolds h s c) (hp : s.tables p)
    (hc : HeapFile.Changes h p (c.chain p) rid r h' chain) :
    StorageHolds h' s (c.setChain p chain) := by
  have ho : s.owners (.table p) := hp
  have hfoot : Footprint h (c.own (.table p)) h' chain.ids := hc.footprint
  obtain ⟨hcatalog, htables, hindexes⟩ := hs.others ho hfoot
  refine ⟨hcatalog nofun, fun q hq => ?_, fun x hx => ?_, ?_⟩
  · by_cases hqp : q = p
    · subst hqp
      rw [Contents.chain_setChain_self]
      exact hc.holds
    · rw [Contents.chain_setChain_of_ne hqp]
      exact htables q hq fun he => hqp (Owner.table.inj he).symm
  · exact hindexes x hx nofun
  · rw [Contents.own_setChain]
    exact hs.owned.change ho hfoot hc.holds.nodup fun q hq => hc.holds.page_ne_none hq

theorem changeIndex {i : Nat} (hs : StorageHolds h s c) (hx : s.indexes x)
    (hc : HashIndex.Changes h x (c.buckets x) i h' b) :
    StorageHolds h' s (c.setBuckets x b) := by
  have ho : s.owners (.index x) := hx
  have hfoot : Footprint h (c.own (.index x)) h' (b.pages x) := hc.footprint
  obtain ⟨hcatalog, htables, hindexes⟩ := hs.others ho hfoot
  refine ⟨hcatalog nofun, fun p hp => ?_, fun y hy => ?_, ?_⟩
  · exact htables p hp nofun
  · by_cases hyx : y = x
    · subst hyx
      rw [Contents.buckets_setBuckets_self]
      exact hc.holds
    · rw [Contents.buckets_setBuckets_of_ne hyx]
      exact hindexes y hy fun he => hyx (Owner.index.inj he).symm
  · rw [Contents.own_setBuckets]
    exact hs.owned.change ho hfoot hc.holds.nodup_pages fun q hq => (hc.holds.page_ne_none hq).1

/-! ## Page 0 -/

theorem setCatalogPage (hs : StorageHolds h s c) (d : PageData) :
    StorageHolds (h.set headerPageId d) { s with catalogPage := d } c := by
  have ho : s.owners .catalog := trivial
  have hmem : headerPageId ∈ c.own .catalog := List.mem_cons_self
  have hfoot : Footprint h (c.own .catalog) (h.set headerPageId d) (c.own .catalog) := by
    apply Footprint.of_same
    intro x hx
    apply Heap.page_set_of_ne
    rintro rfl
    exact hx hmem
  obtain ⟨-, htables, hindexes⟩ := hs.others ho hfoot
  refine ⟨Heap.page_set_self _ _ _, fun p hp => htables p hp nofun,
    fun x hx => hindexes x hx nofun, ?_⟩
  refine hs.owned.congr (fun q => ?_) (fun o => by cases o <;> rfl) fun _ _ => rfl
  rw [Heap.page_set]
  split
  · rename_i hq
    rw [hq]
    exact iff_of_false nofun (hs.owned.exists_of_mem ho hmem)
  · rfl

/-! ## New and dropped parts -/

theorem addTable (hs : StorageHolds h s c) (hp : ¬ s.tables p) (hh : HeapHolds h' p chain)
    (hf : Footprint h [] h' chain.ids) : StorageHolds h' (s.addTable p) (c.setChain p chain) := by
  have howned := hs.owned.add (j := Owner.table p) hp hf hh.nodup fun q hq => hh.page_ne_none hq
  have hsame : ∀ {o q}, s.owners o → q ∈ c.own o → h'.page q = h.page q := fun ho hq =>
    hf.page_eq List.not_mem_nil (hs.owned.exists_of_mem ho hq)
  have hcatalog : s.owners .catalog := trivial
  refine ⟨(hsame hcatalog List.mem_cons_self).trans hs.catalogPage, fun q hq => ?_,
    fun x hx => ?_, ?_⟩
  · by_cases hqp : q = p
    · subst hqp
      rw [Contents.chain_setChain_self]
      exact hh
    · have hq' : s.owners (.table q) := hq.resolve_right hqp
      rw [Contents.chain_setChain_of_ne hqp]
      exact (hs.heap q hq').congr fun y hy => hsame hq' hy
  · have hx' : s.owners (.index x) := hx
    exact (hs.index x hx).congr fun y hy => hsame hx' hy
  · rw [Contents.own_setChain]
    refine howned.congr (fun _ => Iff.rfl) (fun o => ?_) fun _ _ => rfl
    cases o <;> simp [Parts.owners, Parts.addTable]

theorem addIndex (hs : StorageHolds h s c) (hx : ¬ s.indexes x) (hi : IndexHolds h' x b)
    (hf : Footprint h [] h' (b.pages x)) : StorageHolds h' (s.addIndex x) (c.setBuckets x b) := by
  have howned := hs.owned.add (j := Owner.index x) hx hf hi.nodup_pages fun q hq =>
    (hi.page_ne_none hq).1
  have hsame : ∀ {o q}, s.owners o → q ∈ c.own o → h'.page q = h.page q := fun ho hq =>
    hf.page_eq List.not_mem_nil (hs.owned.exists_of_mem ho hq)
  have hcatalog : s.owners .catalog := trivial
  refine ⟨(hsame hcatalog List.mem_cons_self).trans hs.catalogPage, fun p hp => ?_,
    fun y hy => ?_, ?_⟩
  · have hp' : s.owners (.table p) := hp
    exact (hs.heap p hp).congr fun q hq => hsame hp' hq
  · by_cases hyx : y = x
    · subst hyx
      rw [Contents.buckets_setBuckets_self]
      exact hi
    · have hy' : s.owners (.index y) := hy.resolve_right hyx
      rw [Contents.buckets_setBuckets_of_ne hyx]
      exact (hs.index y hy').congr fun q hq => hsame hy' hq
  · rw [Contents.own_setBuckets]
    refine howned.congr (fun _ => Iff.rfl) (fun o => ?_) fun _ _ => rfl
    cases o <;> simp [Parts.owners, Parts.addIndex]

/-- A part is dropped: its pages exist no more, and the others stay. -/
theorem remove (hs : StorageHolds h s c) (ho : s.owners o) (hf : Footprint h (c.own o) h' [])
    (hcatalog : s'.catalogPage = s.catalogPage)
    (howners : ∀ o', s'.owners o' ↔ s.owners o' ∧ o' ≠ o) : StorageHolds h' s' c := by
  obtain ⟨hpage, htables, hindexes⟩ := hs.others ho hf
  have hne : Owner.catalog ≠ o := ((howners .catalog).mp trivial).2
  refine ⟨by rw [hcatalog]; exact hpage hne.symm, fun p hp => ?_, fun x hx => ?_, ?_⟩
  · have hp' : s.owners (.table p) ∧ Owner.table p ≠ o := (howners (.table p)).mp hp
    exact htables p hp'.1 hp'.2.symm
  · have hx' : s.owners (.index x) ∧ Owner.index x ≠ o := (howners (.index x)).mp hx
    exact hindexes x hx'.1 hx'.2.symm
  · exact (hs.owned.remove ho hf).congr (fun _ => Iff.rfl) howners fun _ _ => rfl

end StorageHolds

end MiniDbms
