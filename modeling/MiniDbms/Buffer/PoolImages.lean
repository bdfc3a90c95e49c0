import MiniDbms.Buffer.Programs

/-!
# What is seen of a page when accesses fail

`image w p` is what the next reader of the page `p` sees: the bytes of its frame, else those
of the disk. A `Coherent` pool agrees with its disk on every clean page. Whatever the disk does, a
call changes neither the images nor the coherence, unless it writes to the page, hands it out
anew or deletes it.

* `Keeps`: the image of a page stays, and on the disk it is as before or up to date.
* `run_quiet`: a program that neither writes nor allocates keeps the pages that cannot be deleted.
-/

namespace MiniDbms

open Lib PagedProgram BufferPoolManager

namespace BufferPoolManager

variable {w v w' : BufferPoolManager} {f g : FrameId} {p q : PageId}

/-- The bytes of a page as the next reader sees them. -/
def image (w : BufferPoolManager) (p : PageId) : PageData :=
  match w.frameOf p with
  | some f => (w.pages f).data
  | none => w.disk.pages p

theorem image_of_frameOf (hp : w.frameOf p = some f) : w.image p = (w.pages f).data := by
  rw [image, hp]

theorem image_of_none (hp : w.frameOf p = none) : w.image p = w.disk.pages p := by
  rw [image, hp]

/-- A pool that agrees with its disk on the clean pages. -/
structure Coherent (w : BufferPoolManager) : Prop where
  inv : w.PoolInv
  clean : ∀ {p f}, w.frameOf p = some f → (w.pages f).isDirty = false →
    (w.pages f).data = w.disk.pages p

theorem new_coherent {n : Nat} (hn : 0 < n) (d : DiskManager) : (new n d).Coherent where
  inv := new_poolInv hn d
  clean h := by simp [new, frameOf] at h

/-- The page `p` is seen as before, and its bytes on the disk are as before or what is seen. -/
structure Keeps (p : PageId) (w w' : BufferPoolManager) : Prop where
  coherent : w'.Coherent
  image : w'.image p = w.image p
  disk : w'.disk.pages p = w.disk.pages p ∨ w'.disk.pages p = w.image p

theorem Keeps.refl (hw : w.Coherent) : Keeps p w w := ⟨hw, rfl, .inl rfl⟩

theorem Keeps.trans (h : Keeps p w v) (h' : Keeps p v w') : Keeps p w w' where
  coherent := h'.coherent
  image := h'.image.trans h.image
  disk := by
    rcases h'.disk with hd | hd
    · rw [hd]
      exact h.disk
    · rw [hd, h.image]
      exact .inr rfl

/-! ## The outcomes of the calls -/

theorem Kept.keeps (hk : Kept w w') (hw : w.Coherent) (p : PageId) : Keeps p w w' := by
  have hdisk : w'.disk.pages p = w.disk.pages p ∨ w'.disk.pages p = w.image p := by
    rcases hk.disk p with hd | ⟨f, hf, -, hd⟩
    · exact .inl hd
    · exact .inr (hd.trans (image_of_frameOf hf).symm)
  refine ⟨⟨hk.poolInv hw.inv, fun {q g} hq hclean => ?_⟩, ?_, hdisk⟩
  · rw [hk.frameOf] at hq
    rw [hk.pages] at hclean ⊢
    rcases hk.disk q with hd | ⟨f, hf, hdirty, -⟩
    · rw [hd]
      exact hw.clean hq hclean
    · rw [hq] at hf
      cases hf
      rw [hclean] at hdirty
      cases hdirty
  · cases hp : w.frameOf p with
    | some f =>
      rw [image_of_frameOf ((hk.frameOf p).trans hp), image_of_frameOf hp, hk.pages]
    | none =>
      rw [image_of_none ((hk.frameOf p).trans hp), image_of_none hp]
      rcases hdisk with hd | hd
      · exact hd
      · rw [hd, image_of_none hp]

/-- A call that changes the bookkeeping of a page, and cleans it only by writing it to the disk. -/
theorem Touches.keeps {page : Page} (ht : Touches w q f page w') (hw : w.Coherent)
    (hdata : page.data = (w.pages f).data)
    (hdisk : w'.disk.pages = w.disk.pages ∧ (page.isDirty = false → (w.pages f).isDirty = false) ∨
      w'.disk.pages = Function.update w.disk.pages q page.data) (p : PageId) : Keeps p w w' := by
  have hpages : ∀ g, (w'.pages g).data = (w.pages g).data := by
    intro g
    rw [ht.pages, Function.update_apply]
    split
    · rename_i hg
      rw [hg, hdata]
    · rfl
  have himage : w'.image p = w.image p := by
    cases hp : w.frameOf p with
    | some g => rw [image_of_frameOf ((ht.frameOf p).trans hp), image_of_frameOf hp, hpages]
    | none =>
      rw [image_of_none ((ht.frameOf p).trans hp), image_of_none hp]
      rcases hdisk with ⟨hd, -⟩ | hd
      · rw [hd]
      · have hne : p ≠ q := fun he => by
          rw [he, ht.mapped] at hp
          cases hp
        rw [hd, Function.update_of_ne hne]
  refine ⟨⟨ht.poolInv hw.inv, fun {x g} hx hclean => ?_⟩, himage, ?_⟩
  · rw [ht.frameOf] at hx
    rw [hpages]
    by_cases hg : g = f
    · subst hg
      cases hw.inv.frame_inj hx ht.mapped
      rw [ht.pages, Function.update_self] at hclean
      rcases hdisk with ⟨hd, himp⟩ | hd
      · rw [hd]
        exact hw.clean hx (himp hclean)
      · rw [hd, Function.update_self, hdata]
    · have hne : x ≠ q := fun he => by
        rw [he, ht.mapped] at hx
        exact hg (Option.some.inj hx).symm
      rw [ht.pages, Function.update_of_ne hg] at hclean
      rcases hdisk with ⟨hd, -⟩ | hd
      · rw [hd]
        exact hw.clean hx hclean
      · rw [hd, Function.update_of_ne hne]
        exact hw.clean hx hclean
  · rcases hdisk with ⟨hd, -⟩ | hd
    · exact .inl (by rw [hd])
    · by_cases hp : p = q
      · rw [hp, hd, Function.update_self, hdata, image_of_frameOf ht.mapped]
        exact .inr rfl
      · exact .inl (by rw [hd, Function.update_of_ne hp])

/-- A page that is read into a frame is what was on the disk. -/
theorem Loads.keeps (hl : Loads w f q (w.disk.pages q) w') (hs : Saves w f w'.disk)
    (hw : w.Coherent) (hq : w.frameOf q = none) (h0 : 0 ≤ q.toInt) (hlt : q.toInt < w.disk.numPages)
    (p : PageId) : Keeps p w w' := by
  have hinv : w'.PoolInv := hl.poolInv hw.inv (fun g hg => by rw [hq] at hg; cases hg) h0
    (by rw [hs.shape.numPages]; exact hlt) (le_of_eq hs.shape.numPages.symm)
  -- the disk has what the page in the frame showed before
  have hdisk : ∀ x, w'.disk.pages x = if w.frameOf x = some f then w.image x else
      w.disk.pages x := by
    intro x
    rw [hs.pages]
    by_cases hx : w.frameOf x = some f
    · rw [if_pos hx, image_of_frameOf hx]
      cases hd : (w.pages f).isDirty with
      | true => rw [if_pos ⟨hx, rfl⟩]
      | false => rw [if_neg (by simp), hw.clean hx hd]
    · rw [if_neg hx, if_neg (fun hc => hx hc.1)]
  have hqd : w'.disk.pages q = w.disk.pages q := by
    rw [hdisk, hq, if_neg nofun]
  refine ⟨⟨hinv, fun {x g} hx hclean => ?_⟩, ?_, ?_⟩
  · rw [hl.frameOf] at hx
    rw [hl.pages] at hclean ⊢
    split at hx
    · rename_i hxq
      cases hx
      rw [Function.update_self, hxq, hqd]
    · split at hx
      · cases hx
      · rename_i hxf
        have hg : g ≠ f := fun he => hxf (he ▸ hx)
        rw [Function.update_of_ne hg] at hclean ⊢
        rw [hdisk, if_neg hxf]
        exact hw.clean hx hclean
  · by_cases hpq : p = q
    · have hp' : w'.frameOf p = some f := by rw [hl.frameOf, if_pos hpq]
      rw [image_of_frameOf hp', hl.pages, Function.update_self, hpq, image_of_none hq]
    · by_cases hpf : w.frameOf p = some f
      · have hp' : w'.frameOf p = none := by rw [hl.frameOf, if_neg hpq, if_pos hpf]
        rw [image_of_none hp', hdisk, if_pos hpf]
      · have hp' : w'.frameOf p = w.frameOf p := by rw [hl.frameOf, if_neg hpq, if_neg hpf]
        cases hp : w.frameOf p with
        | none => rw [image_of_none (hp'.trans hp), image_of_none hp, hdisk, if_neg hpf]
        | some g =>
          have hg : g ≠ f := fun he => hpf (he ▸ hp)
          rw [image_of_frameOf (hp'.trans hp), image_of_frameOf hp, hl.pages,
            Function.update_of_ne hg]
  · rw [hdisk]
    split
    · exact .inr rfl
    · exact .inl rfl

/-! ## The calls -/

/-- `FetchPage` shows what was seen before, and leaves it so. -/
theorem Coherent.fetchPage (hw : w.Coherent) (q p : PageId) :
    Keeps p w (w.fetchPage q).2 ∧ ∀ f, (w.fetchPage q).1 = some f →
      (w.fetchPage q).2.frameOf q = some f ∧ ((w.fetchPage q).2.pages f).data = w.image q ∧
        0 < ((w.fetchPage q).2.pages f).pinCount := by
  rcases fetchPage_cases hw.inv q with ⟨f, hf, he⟩ | ⟨f, w', he, hq, h0, hlt, hl, hs⟩ |
    ⟨w', he, -, hk, -⟩
  · obtain ⟨w', he', hdisk, ht⟩ := fetchHit_touches hw.inv hf
    rw [he, he']
    refine ⟨ht.keeps hw rfl (.inl ⟨by rw [hdisk], id⟩) p, fun g hg => ?_⟩
    cases hg
    rw [ht.frameOf, ht.pages, Function.update_self, image_of_frameOf hf]
    exact ⟨hf, rfl, Nat.succ_pos _⟩
  · rw [he]
    refine ⟨hl.keeps hs hw hq h0 hlt p, fun g hg => ?_⟩
    cases hg
    rw [hl.frameOf, if_pos rfl, hl.pages, Function.update_self, image_of_none hq]
    exact ⟨rfl, rfl, Nat.one_pos⟩
  · rw [he]
    exact ⟨hk.keeps hw p, nofun⟩

theorem Coherent.unpinPage (hw : w.Coherent) (q : PageId) (dirty : Bool) (p : PageId) :
    Keeps p w (w.unpinPage q dirty).2 := by
  rcases unpinPage_cases hw.inv q dirty with ⟨f, w', he, hdisk, -, ht⟩ | ⟨he, -⟩
  · rw [he]
    refine ht.keeps hw rfl (.inl ⟨by rw [hdisk], fun hclean => ?_⟩) p
    exact ((Bool.or_eq_false_iff).mp hclean).1
  · rw [he]
    exact .refl hw

theorem Coherent.flushEntry (hw : w.Coherent) (hq : w.frameOf q = some f) (p : PageId) :
    Keeps p w (w.flushEntry q f) := by
  rcases flushEntry_cases hw.inv hq with ⟨ht, hdisk⟩ | ⟨hk, -, -⟩
  · exact ht.keeps hw rfl (.inr hdisk) p
  · exact hk.keeps hw p

theorem Coherent.flushPage (hw : w.Coherent) (q p : PageId) : Keeps p w (w.flushPage q).2 := by
  rw [flushPage_snd]
  cases hq : w.frameOf q with
  | none => exact .refl hw
  | some f => exact hw.flushEntry hq p

theorem Coherent.flushAllPages (hw : w.Coherent) (p : PageId) : Keeps p w w.flushAllPages :=
  (flushAllPages_induction (fun v => Keeps p w v ∧ ∀ x, v.frameOf x = w.frameOf x)
    ⟨.refl hw, fun _ => rfl⟩ fun v hv q f hq => by
      have hq' : v.frameOf q = some f := (hv.2 q).trans hq
      refine ⟨hv.1.trans (hv.1.coherent.flushEntry hq' p), fun x => ?_⟩
      rw [(flushEntry_flushed hv.1.coherent.inv hq').frameOf, hv.2]).1

/-- `DeallocatePage` touches the bytes of no other page, and leaves zeros or nothing changed. -/
theorem pages_deallocatePage (d : DiskManager) (q x : PageId) :
    (d.deallocatePage q).pages x = d.pages x ∨
      x = q ∧ (d.deallocatePage q).pages x = Image.zero := by
  by_cases hx : x = q
  · subst hx
    unfold DiskManager.deallocatePage
    split
    · split
      · split
        · exact .inl rfl
        · split
          · exact .inl rfl
          · exact .inr ⟨rfl, Function.update_self _ _ _⟩
      · exact .inl rfl
    · exact .inl rfl
  · left
    unfold DiskManager.deallocatePage
    split
    · split
      · split
        · rfl
        · split
          · rfl
          · exact Function.update_of_ne hx _ _
      · rfl
    · rfl

/-- Deleting another page. -/
theorem Coherent.deletePage (hw : w.Coherent) (q p : PageId) (hp : p.toInt ≤ 0) :
    Keeps p w (w.deletePage q).2 := by
  have hdealloc : ∀ x, x ≠ q → (w.disk.deallocatePage q).pages x = w.disk.pages x := fun x hx =>
    (pages_deallocatePage w.disk q x).resolve_right fun h => hx h.1
  rcases deletePage_cases hw.inv q with ⟨f, w', he, hpos, hd⟩ | ⟨he, hpos, hq⟩ | ⟨he, -⟩
  · rw [he]
    have hne : p ≠ q := by
      rintro rfl
      omega
    have hpf : w.frameOf p ≠ some f := fun hpf => hne (hw.inv.frame_inj hpf hd.mapped)
    have hdp : w'.disk.pages p = w.disk.pages p := by rw [hd.disk, hdealloc p hne]
    refine ⟨⟨hd.poolInv hw.inv, fun {x g} hx hclean => ?_⟩, ?_, .inl hdp⟩
    · rw [hd.frameOf] at hx
      split at hx
      · cases hx
      · rename_i hxq
        have hg : g ≠ f := fun hgf => hxq (hw.inv.frame_inj hx (hgf ▸ hd.mapped))
        rw [hd.pages, Function.update_of_ne hg] at hclean ⊢
        rw [hd.disk, hdealloc x hxq]
        exact hw.clean hx hclean
    · have hp' : w'.frameOf p = w.frameOf p := by rw [hd.frameOf, if_neg hne]
      cases hf : w.frameOf p with
      | none => rw [image_of_none (hp'.trans hf), image_of_none hf, hdp]
      | some g =>
        have hg : g ≠ f := fun hgf => hpf (hgf ▸ hf)
        rw [image_of_frameOf (hp'.trans hf), image_of_frameOf hf, hd.pages,
          Function.update_of_ne hg]
  · rw [he]
    have hne : p ≠ q := by
      rintro rfl
      omega
    have hinv : PoolInv { w with disk := w.disk.deallocatePage q } := by
      refine ⟨hw.inv.table, hw.inv.freeNodup, hw.inv.free, hw.inv.covered, hw.inv.replacer,
        hw.inv.evictable, fun hx => ?_⟩
      rw [DiskManager.deallocatePage_numPages]
      exact hw.inv.resident hx
    have hdp := hdealloc p hne
    refine ⟨⟨hinv, fun {x g} hx hclean => ?_⟩, ?_, .inl hdp⟩
    · have hx' : w.frameOf x = some g := hx
      have hxq : x ≠ q := fun he => by
        rw [he, hq] at hx'
        cases hx'
      exact (hw.clean hx' hclean).trans (hdealloc x hxq).symm
    · show (match w.frameOf p with
        | some f => (w.pages f).data
        | none => (w.disk.deallocatePage q).pages p) = w.image p
      rw [hdp]
      rfl
  · rw [he]
    exact .refl hw

end BufferPoolManager

/-! ## Replacing a page -/

namespace BufferPoolManager

variable {w : BufferPoolManager} {f : FrameId} {p : PageId}

/-- A page that was fetched, as `FetchPage` returns it. -/
theorem Coherent.fetched (hw : w.Coherent) {v : BufferPoolManager}
    (h : w.fetchPage p = (some f, v)) : v.Coherent ∧ (∀ q, v.image q = w.image q) ∧
      v.frameOf p = some f ∧ (v.pages f).data = w.image p ∧ 0 < (v.pages f).pinCount := by
  have hkeeps := hw.fetchPage p
  rw [h] at hkeeps
  exact ⟨(hkeeps p).1.coherent, fun q => (hkeeps q).1.image, (hkeeps p).2 f rfl⟩

/-- A write to the frame of one page is not seen on the others. -/
theorem image_put {q : PageId} (hq : w.frameOf q ≠ some f) (d : PageData) (mark : Bool) :
    (if mark then (w.writeBytes f d).setDirty f else w.writeBytes f d).image q = w.image q := by
  have hother : ∀ (v : BufferPoolManager) (page : Page), v.frameOf q ≠ some f →
      (v.setFrame f page).image q = v.image q := by
    intro v page hv
    cases hg : v.frameOf q with
    | none =>
      rw [image_of_none hg, image_of_none (w := v.setFrame f page) hg]
      rfl
    | some g =>
      have hne : g ≠ f := fun he => hv (he ▸ hg)
      rw [image_of_frameOf hg, image_of_frameOf (w := v.setFrame f page) hg]
      exact congrArg Page.data (Function.update_of_ne hne _ _)
  split
  · exact (hother (w.writeBytes f d) _ hq).trans (hother w _ hq)
  · exact hother w _ hq

/-- A write to a frame changes neither the page table, nor the pins, nor the disk. -/
theorem put_frames (w : BufferPoolManager) (f : FrameId) (d : PageData) (mark : Bool) :
    ∃ v, (if mark then (w.writeBytes f d).setDirty f else w.writeBytes f d) = v ∧
      v.disk = w.disk ∧ (∀ q, v.frameOf q = w.frameOf q) ∧
      (v.pages f).pinCount = (w.pages f).pinCount ∧
      ∀ q, w.frameOf q ≠ some f → v.image q = w.image q := by
  refine ⟨_, rfl, ?_, ?_, ?_, fun q hq => image_put hq d mark⟩
  · split <;> rfl
  · split <;> exact fun _ => rfl
  · split <;> simp [writeBytes, setDirty, setFrame]

/-- Writing back what is there changes nothing. -/
theorem writeBytes_same (w : BufferPoolManager) (f : FrameId) :
    w.writeBytes f (w.pages f).data = w := by
  unfold writeBytes setFrame
  rw [show ({ w.pages f with data := (w.pages f).data } : Page) = w.pages f from rfl,
    Function.update_eq_self]

/-- A write to a pinned page, which is marked, or else unpinned as dirty. -/
theorem Coherent.rewrite (hw : w.Coherent) (hf : w.frameOf p = some f)
    (hpin : 0 < (w.pages f).pinCount) (d : PageData) {mark dirty : Bool}
    (hmark : (mark || dirty) = true) :
    ∃ v, (if mark then (w.writeBytes f d).setDirty f else w.writeBytes f d).unpinPage p dirty =
        (true, v) ∧ v.Coherent ∧ v.frameOf p = some f ∧
      (v.pages f).data = d ∧ (v.pages f).isDirty = true ∧ v.disk = w.disk ∧
      (∀ x, v.frameOf x = w.frameOf x) ∧ ∀ x, x ≠ p → v.image x = w.image x := by
  obtain ⟨b, hput, hb⟩ : ∃ b, (if mark then (w.writeBytes f d).setDirty f else w.writeBytes f d) =
      w.setFrame f { w.pages f with data := d, isDirty := b } ∧ (b || dirty) = true := by
    cases mark with
    | false =>
      refine ⟨_, rfl, ?_⟩
      rw [Bool.false_or] at hmark
      rw [hmark, Bool.or_true]
    | true =>
      refine ⟨true, ?_, rfl⟩
      simp [writeBytes, setDirty, setFrame]
  rw [hput]
  have ht := touches_setFrame hw.inv hf { w.pages f with data := d, isDirty := b } rfl rfl
  rcases unpinPage_cases (ht.poolInv hw.inv) p dirty with ⟨g, v, he, hdisk, -, ht'⟩ | ⟨-, hzero⟩
  · have hg : g = f := Option.some.inj (ht'.mapped.symm.trans ((ht.frameOf p).trans hf))
    subst hg
    rw [ht.pages, Function.update_self] at ht'
    have hframes : ∀ x, v.frameOf x = w.frameOf x := fun x => (ht'.frameOf x).trans (ht.frameOf x)
    refine ⟨v, he, ⟨ht'.poolInv (ht.poolInv hw.inv), fun {x y} hx hclean => ?_⟩,
      hframes p ▸ hf, ?_, ?_, hdisk, hframes, fun x hx => ?_⟩
    · rw [hframes] at hx
      by_cases hy : y = g
      · subst hy
        rw [ht'.pages, Function.update_self] at hclean
        exact absurd (hb.symm.trans hclean) nofun
      · rw [ht'.pages, Function.update_of_ne hy, ht.pages, Function.update_of_ne hy] at hclean ⊢
        rw [hdisk]
        exact hw.clean hx hclean
    · rw [ht'.pages, Function.update_self]
    · rw [ht'.pages, Function.update_self]
      exact hb
    · cases hy : w.frameOf x with
      | none =>
        rw [image_of_none ((hframes x).trans hy), image_of_none hy, hdisk]
        rfl
      | some y =>
        have hne : y ≠ g := fun he => hx (hw.inv.frame_inj (he ▸ hy) hf)
        rw [image_of_frameOf ((hframes x).trans hy), image_of_frameOf hy, ht'.pages,
          Function.update_of_ne hne, ht.pages, Function.update_of_ne hne]
  · have hpos := hzero f ((ht.frameOf p).trans hf)
    rw [ht.pages, Function.update_self] at hpos
    exact absurd hpos (Nat.pos_iff_ne_zero.mp hpin)

/-- A write to a pinned page, marked or not, which is then unpinned as dirty. -/
theorem Coherent.overwrite (hw : w.Coherent) (hf : w.frameOf p = some f)
    (hpin : 0 < (w.pages f).pinCount) (d : PageData) (mark : Bool) :
    ∃ v, (if mark then (w.writeBytes f d).setDirty f else w.writeBytes f d).unpinPage p true =
        (true, v) ∧ v.Coherent ∧ v.frameOf p = some f ∧
      (v.pages f).data = d ∧ (v.pages f).isDirty = true ∧ v.disk = w.disk ∧
      (∀ x, v.frameOf x = w.frameOf x) ∧ ∀ x, x ≠ p → v.image x = w.image x :=
  hw.rewrite hf hpin d (Bool.or_true mark)

/-! ## A new page that is given up -/

/-- `NewPage` shows every other page as before. -/
theorem Coherent.image_newPage (hw : w.Coherent) {w' : BufferPoolManager} {d : DiskManager}
    (hl : Loads w f p Image.zero w') (hs : Saves w f d) (ha : DiskManager.Allocates d p w'.disk)
    {q : PageId} (hq : q ≠ p) : w'.image q = w.image q := by
  have hdisk : w'.disk.pages q = if w.frameOf q = some f then w.image q else w.disk.pages q := by
    rw [ha.pages, Function.update_of_ne hq, hs.pages]
    by_cases hqf : w.frameOf q = some f
    · rw [if_pos hqf, image_of_frameOf hqf]
      cases hd : (w.pages f).isDirty with
      | true => rw [if_pos ⟨hqf, rfl⟩]
      | false => rw [if_neg (by simp), hw.clean hqf hd]
    · rw [if_neg hqf, if_neg fun hc => hqf hc.1]
  by_cases hqf : w.frameOf q = some f
  · have hq' : w'.frameOf q = none := by rw [hl.frameOf, if_neg hq, if_pos hqf]
    rw [image_of_none hq', hdisk, if_pos hqf]
  · have hq' : w'.frameOf q = w.frameOf q := by rw [hl.frameOf, if_neg hq, if_neg hqf]
    cases hg : w.frameOf q with
    | none => rw [image_of_none (hq'.trans hg), image_of_none hg, hdisk, if_neg hqf]
    | some g =>
      have hne : g ≠ f := fun he => hqf (he ▸ hg)
      rw [image_of_frameOf (hq'.trans hg), image_of_frameOf hg, hl.pages, Function.update_of_ne hne]

/-- A new page that is unpinned and deleted leaves zeros, and the other pages as they were. -/
theorem image_drop_new (hf : w.frameOf p = some f) (hpos : 0 < p.toInt)
    (hpin : (w.pages f).pinCount = 1) (hother : ∀ q, q ≠ p → w.frameOf q ≠ some f)
    (hzero : w.disk.pages p = Image.zero) (q : PageId) :
    ((w.unpinPage p false).2.deletePage p).2.image q = if q = p then Image.zero else w.image q := by
  have hdisk : ∀ x, (w.disk.deallocatePage p).pages x = w.disk.pages x := by
    intro x
    rcases pages_deallocatePage w.disk p x with h | ⟨rfl, h⟩
    · exact h
    · rw [h, hzero]
  have hunpin : (w.unpinPage p false).2 = { w.setFrame f { w.pages f with
      pinCount := 0
      isDirty := (w.pages f).isDirty } with replacer := w.replacer.unpin f } := by
    unfold BufferPoolManager.unpinPage
    rw [hf]
    dsimp only
    rw [hpin, if_neg Nat.one_ne_zero, if_pos rfl, Bool.or_false]
  have hdelete : ((w.unpinPage p false).2.deletePage p).2.frameOf q =
        (if q = p then none else w.frameOf q) ∧
      ((w.unpinPage p false).2.deletePage p).2.disk = w.disk.deallocatePage p ∧
      ∀ g, g ≠ f → ((w.unpinPage p false).2.deletePage p).2.pages g = w.pages g := by
    rw [hunpin]
    unfold BufferPoolManager.deletePage
    rw [if_neg (by omega), show frameOf { w.setFrame f { w.pages f with
      pinCount := 0
      isDirty := (w.pages f).isDirty } with replacer := w.replacer.unpin f } p = some f from hf]
    dsimp only
    rw [if_neg (by simp [setFrame])]
    refine ⟨?_, rfl, fun g hg => ?_⟩
    · show (w.pageTable.erase p).lookup q = _
      split
      · rename_i hq
        rw [hq, AList.lookup_erase]
      · rename_i hq
        exact AList.lookup_erase_ne hq
    · simp only [setFrame, Function.update_of_ne hg]
  obtain ⟨hframe, hd, hpages⟩ := hdelete
  by_cases hq : q = p
  · rw [if_pos hq] at hframe ⊢
    rw [image_of_none hframe, hd, hdisk, hq, hzero]
  · rw [if_neg hq] at hframe ⊢
    cases hg : w.frameOf q with
    | none => rw [image_of_none (hframe.trans hg), image_of_none hg, hd, hdisk]
    | some g =>
      have hne : g ≠ f := fun he => hother q hq (he ▸ hg)
      rw [image_of_frameOf (hframe.trans hg), image_of_frameOf hg, hpages g hne]

/-- `FlushPage` of a dirty page writes it to the disk, unless the write fails. -/
theorem Coherent.flushPage_dirty (hw : w.Coherent) (hf : w.frameOf p = some f)
    (hd : (w.pages f).isDirty = true) :
    if w.disk.faults.write w.disk.ops = true then
      (w.flushPage p).1 = false ∧ (w.flushPage p).2.disk.pages = w.disk.pages
    else
      (w.flushPage p).1 = true ∧ (w.flushPage p).2.disk.pages p = (w.pages f).data := by
  obtain ⟨h0, hlt⟩ := hw.inv.resident hf
  have hwrite : w.disk.writePage p (w.pages f).data =
      if w.disk.faults.write w.disk.ops = true then
        (.error (.ioError "Could not write page to disk"), w.disk.tick)
      else (.ok (), (w.disk.setPage p (w.pages f).data).tick) := by
    unfold DiskManager.writePage
    rw [if_neg (Int.not_lt.mpr h0), if_neg (Int.not_lt.mpr (le_of_lt hlt)),
      if_neg (c := p.toInt = w.disk.numPages) (ne_of_lt hlt)]
  unfold BufferPoolManager.flushPage
  rw [hf]
  dsimp only
  rw [if_pos hd, hwrite]
  by_cases hfault : w.disk.faults.write w.disk.ops = true
  · rw [if_pos hfault, if_pos hfault]
    exact ⟨rfl, rfl⟩
  · rw [if_neg hfault, if_neg hfault]
    exact ⟨rfl, Function.update_self _ _ _⟩

end BufferPoolManager

/-! ## Programs that only read and delete -/

/-- A quiet program keeps the pages that cannot be deleted. -/
theorem run_quiet {α : Type} {x : Program α} (hx : x.Quiet) {w w' : BufferPoolManager} {a : α}
    (hw : w.Coherent) (hrun : x.run w = some (a, w')) {p : PageId} (hp : p.toInt ≤ 0) :
    Keeps p w w' := by
  induction x generalizing w with
  | ret b =>
    cases hrun
    exact .refl hw
  | diverge => cases hrun
  | fetch q k ih =>
    have hk := (hw.fetchPage q p).1
    rw [Program.run] at hrun
    rcases he : w.fetchPage q with ⟨_ | f, v⟩
    · rw [he] at hrun hk
      exact hk.trans (ih none (hx none) hk.coherent hrun)
    · rw [he] at hrun hk
      exact hk.trans (ih _ (hx _) hk.coherent hrun)
  | put f d mark k => exact hx.elim
  | unpin q dirty k ih =>
    have hk := hw.unpinPage q dirty p
    rw [Program.run] at hrun
    exact hk.trans (ih _ (hx _) hk.coherent hrun)
  | alloc k => exact hx.elim
  | free q k ih =>
    have hk := hw.deletePage q p hp
    rw [Program.run] at hrun
    exact hk.trans (ih _ (hx _) hk.coherent hrun)
  | flush q k ih =>
    have hk := hw.flushPage q p
    rw [Program.run] at hrun
    exact hk.trans (ih _ (hx _) hk.coherent hrun)
  | flushAll k ih =>
    have hk := hw.flushAllPages p
    exact hk.trans (ih hx hk.coherent hrun)

/-! ## Pools that hold the pages of a database -/

section

variable {ext : PageId → Nat} {w : BufferPoolManager} {h : Pages} {p : PageId} {d : PageData}

theorem Holds.image (hw : Holds ext w h) (hp : h.page p = some d) : w.image p = d := by
  obtain ⟨r, hr⟩ := hw
  have hmem : (viewOf ext ⟨h, none, r⟩).mem p = d := congrArg (Option.getD · Image.zero) hp
  rw [← hmem]
  cases hf : w.frameOf p with
  | some f => exact (image_of_frameOf hf).trans (hr.sim.data hf)
  | none =>
    have ha : w.disk.Allocated p := (hr.domain p).mp (by rw [hp]; nofun)
    exact (image_of_none hf).trans (hr.sim.onDisk ha hf)

theorem Holds.coherent (hw : Holds ext w h) : w.Coherent := by
  obtain ⟨r, hr⟩ := hw
  exact ⟨hr.sim.inv, fun hp hclean => (hr.sim.data hp).trans (hr.sim.clean hp hclean rfl).symm⟩

/-- The pages that a pool holds are those that are allocated. -/
theorem Holds.allocated (hw : Holds ext w h) (p : PageId) :
    h.page p ≠ none ↔ w.disk.Allocated p := by
  obtain ⟨r, hr⟩ := hw
  exact hr.domain p

/-- Two descriptions of one pool have the same pages. -/
theorem Holds.page_eq {ext' : PageId → Nat} {h' : Pages} (hw : Holds ext w h)
    (hw' : Holds ext' w h') (hp : h'.page p = some d) : h.page p = some d := by
  have ha : w.disk.Allocated p := (hw'.allocated p).mp (by rw [hp]; nofun)
  obtain ⟨d', hd⟩ := Option.ne_none_iff_exists'.mp ((hw.allocated p).mpr ha)
  rw [hd, ← hw.image hd, hw'.image hp]

end

end MiniDbms
