import MiniDbms.Buffer.PoolImages

/-!
# Writes that `FlushAllPages` loses

`FlushAllPages` goes on when the write of a dirty page fails, and does not tell its caller. After it
the disk has what the pool shows of every page but those (`flushAllPages_disk`).
-/

namespace MiniDbms

open Lib

namespace DiskManager

theorem writePage_other {d : DiskManager} {p x : PageId} (hx : x ≠ p) (data : PageData) :
    (d.writePage p data).2.pages x = d.pages x := by
  unfold writePage
  split
  · rfl
  split
  · rfl
  split
  · rfl
  split
  · split
    · exact Function.update_of_ne hx _ _
    · rfl
  · exact Function.update_of_ne hx _ _

end DiskManager

namespace BufferPoolManager

variable {w w' v : BufferPoolManager} {p q : PageId} {f g : FrameId}

/-! ## One turn of the loop -/

theorem flushEntry_disk_other (hx : q ≠ p) (w : BufferPoolManager) (f : FrameId) :
    (w.flushEntry p f).disk.pages q = w.disk.pages q := by
  have hwrite := DiskManager.writePage_other (d := w.disk) hx (w.pages f).data
  unfold flushEntry
  split
  · revert hwrite
    rcases w.disk.writePage p (w.pages f).data with ⟨_ | _, d⟩
    · exact fun h => h
    · exact fun h => h
  · rfl

theorem flushEntry_pages_other (hg : g ≠ f) (w : BufferPoolManager) (p : PageId) :
    (w.flushEntry p f).pages g = w.pages g := by
  unfold flushEntry
  split
  · rcases w.disk.writePage p (w.pages f).data with ⟨_ | _, d⟩
    · rfl
    · exact Function.update_of_ne hg _ _
  · rfl

/-- The loop of `FlushAllPages` over some entries of the page table. -/
def flushEntries (w : BufferPoolManager) (entries : List ((_ : PageId) × FrameId)) :
    BufferPoolManager :=
  entries.foldl (fun w e => w.flushEntry e.1 e.2) w

/-- Entries of other pages leave a page and its frame alone. -/
theorem flushEntries_other (q : PageId) (g : FrameId) : ∀ (entries : List ((_ : PageId) × FrameId))
    (w : BufferPoolManager), (∀ e ∈ entries, e.1 ≠ q) →
      (w.flushEntries entries).disk.pages q = w.disk.pages q ∧
        ((∀ e ∈ entries, e.2 ≠ g) → (w.flushEntries entries).pages g = w.pages g) := by
  intro entries
  induction entries with
  | nil => exact fun _ _ => ⟨rfl, fun _ => rfl⟩
  | cons e entries ih =>
    intro w hq
    obtain ⟨hdisk, hpages⟩ := ih (w.flushEntry e.1 e.2) fun x hx => hq x (List.mem_cons_of_mem _ hx)
    refine ⟨hdisk.trans (flushEntry_disk_other (hq e List.mem_cons_self).symm w e.2), fun hg => ?_⟩
    have hrest := hpages fun x hx => hg x (List.mem_cons_of_mem _ hx)
    exact hrest.trans (flushEntry_pages_other (hg e List.mem_cons_self).symm w e.1)

/-! ## The whole loop -/

/-- The page is dirty, and the write that `FlushAllPages` makes of it fails. -/
def FlushFails (w : BufferPoolManager) (q : PageId) : Prop :=
  ∃ before f after, w.pageTable.entries = before ++ ⟨q, f⟩ :: after ∧ (w.pages f).isDirty = true ∧
    (w.flushEntries before).disk.faults.write (w.flushEntries before).disk.ops = true

/-- The entry of a page is the only one of the page, and of its frame. -/
theorem entry_unique (hw : w.PoolInv) {before after : List ((_ : PageId) × FrameId)}
    (he : w.pageTable.entries = before ++ ⟨q, f⟩ :: after) :
    (∀ e ∈ before, e.1 ≠ q ∧ e.2 ≠ f) ∧ ∀ e ∈ after, e.1 ≠ q ∧ e.2 ≠ f := by
  have hnodup : (before.map Sigma.fst ++ q :: after.map Sigma.fst).Nodup := by
    have hkeys := w.pageTable.keys_nodup
    rw [AList.keys, List.keys, he, List.map_append, List.map_cons] at hkeys
    exact hkeys
  obtain ⟨-, hafter, hdisj⟩ := List.nodup_append.mp hnodup
  have hmapped : w.frameOf q = some f := mem_entries (e := ⟨q, f⟩) (by rw [he]; simp)
  have hframe : ∀ e ∈ w.pageTable.entries, e.1 ≠ q → e.2 ≠ f := fun e hin hne hf =>
    hne (hw.frame_inj (mem_entries hin) (hf ▸ hmapped))
  have hbefore : ∀ e ∈ before, e.1 ≠ q := fun e hin =>
    hdisj _ (List.mem_map_of_mem hin) _ List.mem_cons_self
  have hlater : ∀ e ∈ after, e.1 ≠ q := fun e hin heq =>
    (List.nodup_cons.mp hafter).1 (heq ▸ List.mem_map_of_mem hin)
  refine ⟨fun e hin => ⟨hbefore e hin, hframe e ?_ (hbefore e hin)⟩, fun e hin =>
    ⟨hlater e hin, hframe e ?_ (hlater e hin)⟩⟩
  · rw [he]
    exact List.mem_append_left _ hin
  · rw [he]
    exact List.mem_append_right _ (List.mem_cons_of_mem _ hin)

/-- The turn of the loop for one page: it writes the page, unless the page is clean or the write
fails. -/
theorem flushEntry_disk (hw : w.PoolInv) (hf : w.frameOf p = some f) :
    (w.flushEntry p f).disk.pages p =
      if (w.pages f).isDirty = true ∧ w.disk.faults.write w.disk.ops = false then (w.pages f).data
      else w.disk.pages p := by
  have hrange := hw.resident hf
  unfold flushEntry
  split
  · rename_i hdirty
    rcases DiskManager.writePage_cases hrange.1 hrange.2 (w.pages f).data with
      hok | ⟨hfault, e, herr⟩
    · by_cases hfault : w.disk.faults.write w.disk.ops = true
      · have : (w.disk.writePage p (w.pages f).data).1 =
            .error (.ioError "Could not write page to disk") := by
          unfold DiskManager.writePage
          rw [if_neg (Int.not_lt.mpr hrange.1), if_neg (Int.not_lt.mpr (le_of_lt hrange.2)),
            if_pos hfault]
        rw [hok] at this
        cases this
      · rw [hok, if_pos ⟨hdirty, by simpa using hfault⟩]
        exact Function.update_self _ _ _
    · rw [herr, if_neg (by rw [hfault]; exact fun h => nomatch h.2)]
      rfl
  · rename_i hclean
    rw [if_neg fun h => hclean h.1]

/-- After `FlushAllPages` the disk has what the pool shows of a page, unless the write failed. -/
theorem flushAllPages_disk (hw : w.Coherent) (q : PageId) :
    (¬ w.FlushFails q → w.flushAllPages.disk.pages q = w.image q) ∧
      (w.FlushFails q → w.flushAllPages.disk.pages q = w.disk.pages q) := by
  have hall : w.flushAllPages = w.flushEntries w.pageTable.entries := rfl
  cases hq : w.frameOf q with
  | none =>
    have hother : ∀ e ∈ w.pageTable.entries, e.1 ≠ q := fun e hin heq => by
      have hmapped := mem_entries hin
      rw [heq, hq] at hmapped
      cases hmapped
    rw [hall, (flushEntries_other q 0 _ w hother).1, image_of_none hq]
    exact ⟨fun _ => rfl, fun _ => rfl⟩
  | some f =>
    obtain ⟨before, after, he⟩ := List.append_of_mem (AList.mem_lookup_iff.mp hq)
    obtain ⟨hbefore, hafter⟩ := entry_unique hw.inv he
    obtain ⟨hdisk, hpage⟩ := flushEntries_other q f before w fun e hin => (hbefore e hin).1
    have hpage := hpage fun e hin => (hbefore e hin).2
    have hinv : Flushed w (w.flushEntries before) := by
      suffices h : ∀ (entries : List ((_ : PageId) × FrameId)),
          (∀ e ∈ entries, w.frameOf e.1 = some e.2) → Flushed w (w.flushEntries entries) from
        h before fun e hin => mem_entries (by rw [he]; exact List.mem_append_left _ hin)
      intro entries hin
      exact List.foldlRecOn (motive := Flushed w) entries _
        ⟨hw.inv, fun _ => rfl, fun _ => rfl, fun _ => rfl, rfl, .refl _⟩ fun v hv e he' =>
          hv.trans (flushEntry_flushed hv.inv ((hv.frameOf e.1).trans (hin e he')))
    have hsplit : w.flushAllPages =
        ((w.flushEntries before).flushEntry q f).flushEntries after := by
      rw [hall, flushEntries, he, List.foldl_append, List.foldl_cons]
      rfl
    have hturn : w.flushAllPages.disk.pages q = if (w.pages f).isDirty = true ∧
        (w.flushEntries before).disk.faults.write (w.flushEntries before).disk.ops = false then
          (w.pages f).data else w.disk.pages q := by
      rw [hsplit, (flushEntries_other q 0 after _ fun e hin => (hafter e hin).1).1,
        flushEntry_disk hinv.inv ((hinv.frameOf q).trans hq), hpage, hdisk]
    rw [hturn, image_of_frameOf hq]
    constructor
    · intro hno
      split
      · rfl
      · rename_i hc
        have hclean : (w.pages f).isDirty = false := by
          by_contra hdirty
          have hdirty : (w.pages f).isDirty = true := by simpa using hdirty
          exact hno ⟨before, f, after, he, hdirty, by simpa [hdirty] using hc⟩
        exact (hw.clean hq hclean).symm
    · rintro ⟨before', g, after', he', hdirty, hfault⟩
      have hg : g = f := by
        have hin : (⟨q, g⟩ : (_ : PageId) × FrameId) ∈ w.pageTable.entries := by rw [he']; simp
        exact Option.some.inj ((mem_entries hin).symm.trans hq)
      subst hg
      have hsame : before' = before := by
        have hnot : ∀ {l : List ((_ : PageId) × FrameId)}, (∀ e ∈ l, e.1 ≠ q ∧ e.2 ≠ g) →
            (⟨q, g⟩ : (_ : PageId) × FrameId) ∉ l := fun h hin => (h _ hin).1 rfl
        rw [he] at he'
        exact ((List.append_cons_inj_of_notMem (hnot hbefore) (hnot hafter)).mp he').1.symm
      rw [hsame] at hfault
      rw [if_neg (by rw [hfault]; exact fun h => nomatch h.2)]

/-! ## Fetching another page -/

/-- Fetching a page does not write one that stays in the pool. -/
theorem fetchPage_disk_of_resident (hw : w.PoolInv) (hq : q ≠ p) (hf : (w.fetchPage p).1 = some f)
    (hg : (w.fetchPage p).2.frameOf q = some g) :
    (w.fetchPage p).2.disk.pages q = w.disk.pages q := by
  rcases fetchPage_cases hw p with ⟨f', -, he⟩ | ⟨f', w', he, -, -, -, hl, hs⟩ | ⟨w', he, -⟩
  · rw [he]
    rfl
  · rw [he] at hg ⊢
    rw [hl.frameOf, if_neg hq] at hg
    rw [hs.pages]
    split
    · rename_i hc
      rw [if_pos hc.1] at hg
      cases hg
    · rfl
  · rw [he] at hf
    cases hf

end BufferPoolManager

end MiniDbms
