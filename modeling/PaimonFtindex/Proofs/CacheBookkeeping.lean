/-
The bookkeeping of the read cache.

The cache is meant to be a bounded first-in first-out queue of its
positions (`Lib.Fifo`), with a block for each. `Holds` ties the three
structures of the source to that queue: the order is the queue, the map
has its positions as keys, and the counter is its length. Looking up
changes nothing of this, and inserting a new position is one push:
whatever the loop of `insert` does, it lets go of what the queue lets go
of (`insert_of_room`, `insert_of_full`).

A run keeps an account of positions: those added, in order, are those
evicted, in order, and then those held (`account_of_run`). The counts,
and that the evicted position is the oldest, are read off it.
-/
import PaimonFtindex.Lib.Fifo
import PaimonFtindex.Model.ArchiveDirectory

namespace PaimonFtindex.Proofs

open Model Lib

/-- The positions in the cache, as the queue they are meant to be. -/
abbrev CacheQueue : Type := Fifo UInt64 readCacheMaxBlocks

/-- The cache holds the positions of the queue. -/
structure Holds (q : CacheQueue) (cache : ArchiveReadCache) : Prop where
  unpoisoned : cache.poisoned = false
  order : cache.inner.order = q.keys
  keys : q.keys.Perm cache.inner.blocks.keys
  cachedBlocks : cache.metrics.cachedBlocks.toNat = q.keys.length

theorem holds_empty : Holds Fifo.empty {} :=
  ⟨rfl, rfl, List.Perm.nil, rfl⟩

section
variable {q : CacheQueue} {cache : ArchiveReadCache}

theorem Holds.mem_iff (h : Holds q cache) {pos : UInt64} :
    pos ∈ cache.inner.blocks ↔ pos ∈ q.keys := by
  rw [AList.mem_keys, h.keys.mem_iff]

theorem Holds.length_eq (h : Holds q cache) :
    cache.inner.blocks.entries.length = q.keys.length := by
  rw [h.keys.length_eq]
  exact (List.length_map _).symm

-- =============================================================== eviction

/-- Erasing a position that is there takes one block out. -/
theorem length_erase {blocks : AList (fun _ : UInt64 => Bytes)} {pos : UInt64}
    (hmem : pos ∈ blocks) :
    (blocks.erase pos).entries.length = blocks.entries.length - 1 := by
  have herase : (blocks.erase pos).keys.length = blocks.keys.length - 1 := by
    rw [AList.keys_erase, List.length_erase_of_mem (AList.mem_keys.mp hmem)]
  unfold AList.keys List.keys at herase
  rwa [List.length_map, List.length_map] at herase

/-- A map with room stays as it is. -/
theorem evict_of_room {blocks : AList (fun _ : UInt64 => Bytes)}
    {metrics : ReadMetrics} {order : List UInt64}
    (hroom : blocks.entries.length < readCacheMaxBlocks) :
    evict blocks metrics order = (⟨blocks, order⟩, metrics) := by
  cases order with
  | nil => rfl
  | cons evicted order =>
      unfold evict
      rw [if_neg (by omega)]

/-- A full map loses the block at the front of the order, and only
that. -/
theorem evict_of_full {blocks : AList (fun _ : UInt64 => Bytes)}
    {metrics : ReadMetrics} {oldest : UInt64} {kept : List UInt64}
    (hfull : blocks.entries.length = readCacheMaxBlocks)
    (hmem : oldest ∈ blocks) :
    evict blocks metrics (oldest :: kept)
      = (⟨blocks.erase oldest, kept⟩, metrics.recordCacheEviction) := by
  have hlength : (blocks.erase oldest).entries.length < readCacheMaxBlocks := by
    rw [length_erase hmem, hfull]
    decide
  unfold evict
  rw [if_pos hfull.ge]
  exact evict_of_room hlength

/-- The eviction loop leaves the counter right. -/
theorem counter_of_evict (h : Holds q cache) :
    (evict cache.inner.blocks cache.metrics cache.inner.order).2.cachedBlocks.toNat
      = (evict cache.inner.blocks cache.metrics
          cache.inner.order).1.blocks.entries.length := by
  by_cases hroom : cache.inner.blocks.entries.length < readCacheMaxBlocks
  · rw [evict_of_room hroom]
    exact h.cachedBlocks.trans h.length_eq.symm
  · have hle := q.length_le
    have hlength := h.length_eq
    have hfull : cache.inner.blocks.entries.length = readCacheMaxBlocks := by
      omega
    have hpos : 0 < readCacheMaxBlocks := by decide
    obtain ⟨oldest, kept, hkeys⟩ := List.exists_cons_of_length_pos
      (show 0 < q.keys.length by omega)
    have hmem : oldest ∈ cache.inner.blocks := by
      rw [h.mem_iff, hkeys]
      exact List.mem_cons_self
    rw [h.order, hkeys, evict_of_full hfull hmem]
    show (cache.metrics.cachedBlocks - 1).toNat = _
    rw [length_erase hmem, hlength, ← h.cachedBlocks]
    apply toNat_sub_of_le
    show 1 ≤ cache.metrics.cachedBlocks.toNat
    rw [h.cachedBlocks]
    omega

-- ============================================================== insertion

/-- A position that is there keeps its block. -/
theorem insert_of_held (h : Holds q cache) {pos : UInt64}
    {block existing : Bytes}
    (hlookup : cache.inner.blocks.lookup pos = some existing) :
    cache.insert pos block = (.ok existing, cache) := by
  unfold ArchiveReadCache.insert
  rw [if_neg (by simp [h.unpoisoned]), hlookup]

/-- A new position, with room for it. -/
theorem insert_of_room (h : Holds q cache) {pos : UInt64} {block : Bytes}
    (hnew : pos ∉ cache.inner.blocks)
    (hroom : cache.inner.blocks.entries.length < readCacheMaxBlocks) :
    cache.insert pos block = (.ok block,
      { cache with
        inner := ⟨cache.inner.blocks.insert pos block,
          cache.inner.order ++ [pos]⟩
        metrics := cache.metrics.recordCacheInsert }) := by
  unfold ArchiveReadCache.insert
  rw [if_neg (by simp [h.unpoisoned]), AList.lookup_eq_none.mpr hnew]
  dsimp only
  rw [evict_of_room hroom]

/-- A new position, in the place of the oldest one. -/
theorem insert_of_full (h : Holds q cache) {pos oldest : UInt64}
    {kept : List UInt64} {block : Bytes} (hnew : pos ∉ cache.inner.blocks)
    (hfull : cache.inner.blocks.entries.length = readCacheMaxBlocks)
    (horder : cache.inner.order = oldest :: kept) :
    cache.insert pos block = (.ok block,
      { cache with
        inner := ⟨(cache.inner.blocks.erase oldest).insert pos block,
          kept ++ [pos]⟩
        metrics := cache.metrics.recordCacheEviction.recordCacheInsert }) := by
  have hmem : oldest ∈ cache.inner.blocks := by
    rw [h.mem_iff, ← h.order, horder]
    exact List.mem_cons_self
  unfold ArchiveReadCache.insert
  rw [if_neg (by simp [h.unpoisoned]), AList.lookup_eq_none.mpr hnew]
  dsimp only
  rw [horder, evict_of_full hfull hmem]

-- ============================================================ the account

/-- The position a step adds: that of an insert that finds it free. -/
def addedBy (cache : ArchiveReadCache) : CacheOp → List UInt64
  | .insert pos _ => if pos ∈ cache.inner.blocks then [] else [pos]
  | _ => []

/-- The positions a step takes out, oldest first. -/
def evictedBy (before after : ArchiveReadCache) : List UInt64 :=
  before.inner.order.filter fun pos => decide (pos ∉ after.inner.blocks)

/-- A step that leaves the positions alone takes nothing out. -/
theorem evictedBy_same (h : Holds q cache) {cache' : ArchiveReadCache}
    (hsame : cache'.inner = cache.inner) : evictedBy cache cache' = [] := by
  unfold evictedBy
  rw [List.filter_eq_nil_iff]
  intro pos hpos
  rw [h.order, ← h.mem_iff] at hpos
  simp [hsame, hpos]

/-- What a step does to the books: they stay right, and what it takes
out and leaves is what was there and what it adds. -/
structure Booked (q q' : CacheQueue) (cache : ArchiveReadCache) (op : CacheOp)
    (cache' : ArchiveReadCache) : Prop where
  holds : Holds q' cache'
  account : evictedBy cache cache' ++ q'.keys = q.keys ++ addedBy cache op
  evictions : cache'.metrics.cacheEvictions = cache.metrics.cacheEvictions
    + UInt64.ofNat (evictedBy cache cache').length

/-- A step that touches neither the positions nor their counters. -/
theorem booked_same (h : Holds q cache) {op : CacheOp}
    {cache' : ArchiveReadCache} (hop : addedBy cache op = [])
    (hinner : cache'.inner = cache.inner)
    (hpoisoned : cache'.poisoned = cache.poisoned)
    (hblocks : cache'.metrics.cachedBlocks = cache.metrics.cachedBlocks)
    (hevictions : cache'.metrics.cacheEvictions
      = cache.metrics.cacheEvictions) :
    Booked q q cache op cache' := by
  refine ⟨⟨?_, ?_, ?_, ?_⟩, ?_, ?_⟩
  · rw [hpoisoned, h.unpoisoned]
  · rw [hinner, h.order]
  · rw [hinner]
    exact h.keys
  · rw [hblocks, h.cachedBlocks]
  · rw [evictedBy_same h hinner, hop, List.nil_append, List.append_nil]
  · rw [evictedBy_same h hinner, hevictions]
    show _ = _ + 0
    rw [UInt64.add_zero]

/-- An insert of a new position pushes it. -/
theorem booked_insert (h : Holds q cache) {pos : UInt64} {block : Bytes}
    (hnew : pos ∉ cache.inner.blocks) :
    ∃ q', Booked q q' cache (.insert pos block) (cache.insert pos block).2 := by
  have hfresh : pos ∉ q.keys := fun hmem => hnew (h.mem_iff.mpr hmem)
  have hpos : 0 < readCacheMaxBlocks := by decide
  have hadded : addedBy cache (.insert pos block) = [pos] := if_neg hnew
  refine ⟨q.push pos hfresh hpos, ?_⟩
  have hheld : ∀ {p}, p ∈ cache.inner.order ↔ p ∈ cache.inner.blocks := by
    intro p
    rw [h.order, h.mem_iff]
  by_cases hroom : q.keys.length < readCacheMaxBlocks
  · obtain ⟨hleaving, hpush⟩ := @Fifo.push_of_room _ _ q pos hfresh hpos hroom
    have hevicted : evictedBy cache (cache.insert pos block).2 = q.leaving := by
      unfold evictedBy
      rw [insert_of_room h hnew (h.length_eq ▸ hroom), hleaving,
        List.filter_eq_nil_iff]
      intro p hp
      simp [AList.mem_insert, hheld.mp hp]
    rw [insert_of_room h hnew (h.length_eq ▸ hroom)] at hevicted ⊢
    refine ⟨⟨h.unpoisoned, ?_, ?_, ?_⟩, ?_, ?_⟩
    · rw [hpush, ← h.order]
    · rw [hpush, AList.keys_insert,
        List.erase_of_not_mem (AList.mem_keys.not.mp hnew)]
      exact (List.perm_append_singleton pos q.keys).trans (h.keys.cons pos)
    · show (cache.metrics.cachedBlocks + 1).toNat = _
      rw [hpush, List.length_append, List.length_singleton, UInt64.toNat_add,
        h.cachedBlocks]
      unfold readCacheMaxBlocks at hroom
      show (_ + 1) % 2 ^ 64 = _
      omega
    · rw [hevicted, hadded]
      exact Fifo.leaving_append_push
    · rw [hevicted, hleaving]
      show cache.metrics.cacheEvictions = _ + 0
      rw [UInt64.add_zero]
  · have hfull : q.keys.length = readCacheMaxBlocks := by
      have := q.length_le
      omega
    obtain ⟨oldest, kept, hkeys⟩ := List.exists_cons_of_length_pos
      (hfull ▸ hpos)
    have hnodup := q.nodup
    rw [hkeys, List.nodup_cons] at hnodup
    obtain ⟨hleaving, hpush⟩ :=
      @Fifo.push_of_full _ _ q pos hfresh hpos _ _ hfull hkeys
    have hstep := @insert_of_full _ _ h pos oldest kept block hnew
      (h.length_eq ▸ hfull) (h.order.trans hkeys)
    have hne : oldest ≠ pos := by
      rintro rfl
      exact hfresh (hkeys ▸ List.mem_cons_self)
    have hevicted : evictedBy cache (cache.insert pos block).2 = q.leaving := by
      unfold evictedBy
      rw [hstep, h.order, hleaving, hkeys, List.filter_cons_of_pos
        (by simp [AList.mem_insert, AList.mem_erase, hne])]
      rw [List.filter_eq_nil_iff.mpr]
      intro p hp
      have hp' : p ∈ cache.inner.blocks :=
        h.mem_iff.mpr (hkeys ▸ List.mem_cons_of_mem _ hp)
      have hne' : p ≠ oldest := fun heq => hnodup.1 (heq ▸ hp)
      simp [AList.mem_insert, AList.mem_erase, hp', hne']
    rw [hstep] at hevicted ⊢
    refine ⟨⟨h.unpoisoned, ?_, ?_, ?_⟩, ?_, ?_⟩
    · rw [hpush]
    · have hrest : kept.Perm (cache.inner.blocks.keys.erase oldest) := by
        have hkeep := h.keys.erase oldest
        rw [hkeys, List.erase_cons_head] at hkeep
        exact hkeep
      have hnot : pos ∉ cache.inner.blocks.keys.erase oldest := fun hmem =>
        hnew (AList.mem_keys.mpr (List.mem_of_mem_erase hmem))
      rw [hpush, AList.keys_insert, AList.keys_erase,
        List.erase_of_not_mem hnot]
      exact (List.perm_append_singleton pos kept).trans (hrest.cons pos)
    · show (cache.metrics.cachedBlocks - 1 + 1).toNat = _
      rw [UInt64.sub_add_cancel, h.cachedBlocks, hpush, hkeys,
        List.length_append]
      rfl
    · rw [hevicted, hadded]
      exact Fifo.leaving_append_push
    · rw [hevicted, hleaving]
      rfl

/-- Every step of the cache keeps the books. -/
theorem booked_of_step (h : Holds q cache) {data : Bytes} {op : CacheOp}
    {r : op.Res} {cache' : ArchiveReadCache}
    (hstep : CacheStep data cache op r cache') :
    ∃ q', Booked q q' cache op cache' := by
  cases hstep with
  | get pos =>
      refine ⟨q, ?_⟩
      unfold ArchiveReadCache.get
      rw [if_neg (by simp [h.unpoisoned])]
      cases cache.inner.blocks.lookup pos with
      | some block => exact booked_same h rfl rfl rfl rfl rfl
      | none => exact booked_same h rfl rfl rfl rfl rfl
  | recordMiss => exact ⟨q, booked_same h rfl rfl rfl rfl rfl⟩
  | pread pos len hle => exact ⟨q, booked_same h rfl rfl rfl rfl rfl⟩
  | preadError pos len error => exact ⟨q, booked_same h rfl rfl rfl rfl rfl⟩
  | insert pos block =>
      by_cases hheld : pos ∈ cache.inner.blocks
      · obtain ⟨existing, hlookup⟩ :=
          Option.isSome_iff_exists.mp (AList.lookup_isSome.mpr hheld)
        rw [insert_of_held h hlookup]
        exact ⟨q, booked_same h (if_pos hheld) rfl rfl rfl rfl⟩
      · exact booked_insert h hheld

end

-- ================================================================== runs

/-- One step of one of the threads that share the cache. -/
abbrev CacheEvent : Type := Event CacheOp CacheOp.Res ArchiveReadCache

/-- The positions added in a run, in order. -/
def added (es : List CacheEvent) : List UInt64 :=
  es.flatMap fun e => addedBy e.before e.op

/-- The positions evicted in a run, in order. -/
def evicted (es : List CacheEvent) : List UInt64 :=
  es.flatMap fun e => evictedBy e.before e.after

section
variable {α : Type} {data : Bytes} {es : List CacheEvent}
  {c c' : Config CacheOp CacheOp.Res ReadFault α ArchiveReadCache}

/-- Over a run, what was there and what came is what left and what is
there. -/
theorem account_of_run {q : CacheQueue} (h : Holds q c.shared)
    (hrun : Run (CacheStep data) c es c') :
    ∃ q', Holds q' c'.shared
      ∧ evicted es ++ q'.keys = q.keys ++ added es
      ∧ c'.shared.metrics.cacheEvictions = c.shared.metrics.cacheEvictions
        + UInt64.ofNat (evicted es).length := by
  induction hrun generalizing q with
  | nil c =>
      refine ⟨q, h, ?_, ?_⟩
      · show [] ++ q.keys = q.keys ++ []
        rw [List.nil_append, List.append_nil]
      · show _ = _ + 0
        rw [UInt64.add_zero]
  | @cons c c₁ c₂ e es step rest ih =>
      obtain ⟨q₁, hstep⟩ := booked_of_step h step.effect
      obtain ⟨q₂, hholds, haccount, hevictions⟩ := ih hstep.holds
      have hevent : evictedBy e.before e.after = evictedBy c.shared c₁.shared := by
        rw [step.before_eq, step.after_eq]
      refine ⟨q₂, hholds, ?_, ?_⟩
      · unfold evicted added at haccount ⊢
        rw [List.flatMap_cons, List.flatMap_cons, hevent, step.before_eq,
          List.append_assoc, haccount, ← List.append_assoc, hstep.account,
          List.append_assoc]
      · unfold evicted at hevictions ⊢
        rw [List.flatMap_cons, hevent, hevictions, hstep.evictions,
          List.length_append, UInt64.ofNat_add, UInt64.add_assoc]

/-- The cache's bookkeeping never drifts. After any run of any programs
on a cache that was empty at first, in any interleaving: the order holds
the positions of the map, each once; there are at most 256, and the
counter says how many; the positions added are as many as those evicted,
which their counter counts, and those held. At every insert of the run,
a position that is held changes nothing and answers with its block; a
new one, in a full cache, takes out the position that came first of
those not yet taken out, and only that. The counter is right in the
middle of an insert as well. -/
theorem cache_bookkeeping {threads : List (ReadProg α)}
    {final : Config CacheOp CacheOp.Res ReadFault α ArchiveReadCache}
    (hrun : Run (CacheStep data) ⟨{}, threads⟩ es final) :
    (final.shared.inner.order.Nodup
      ∧ ∀ pos, pos ∈ final.shared.inner.order
        ↔ pos ∈ final.shared.inner.blocks)
    ∧ final.shared.inner.blocks.entries.length ≤ 256
    ∧ final.shared.metrics.cachedBlocks.toNat
        = final.shared.inner.blocks.entries.length
    ∧ ((added es).length
        = (evicted es).length + final.shared.inner.blocks.entries.length
      ∧ final.shared.metrics.cacheEvictions
        = UInt64.ofNat (evicted es).length)
    ∧ ∀ (past future : List CacheEvent) (thread : Nat) (pos : UInt64)
        (block : Bytes) (res : Except IoError Bytes)
        (before after : ArchiveReadCache),
        es = past ++ ⟨thread, .insert pos block, res, before, after⟩ :: future →
        (∀ existing, before.inner.blocks.lookup pos = some existing →
          after = before ∧ res = .ok existing)
        ∧ (pos ∉ before.inner.blocks →
          (evict before.inner.blocks before.metrics
              before.inner.order).2.cachedBlocks.toNat
              = (evict before.inner.blocks before.metrics
                  before.inner.order).1.blocks.entries.length
          ∧ (before.inner.blocks.entries.length = 256 →
            ∃ oldest kept, added past = evicted past ++ oldest :: kept
              ∧ before.inner.order = oldest :: kept
              ∧ after.inner.order = kept ++ [pos]
              ∧ res = .ok block
              ∧ ∀ p, after.inner.blocks.lookup p
                = if p = pos then some block
                  else if p = oldest then none
                  else before.inner.blocks.lookup p)) := by
  obtain ⟨q, hholds, haccount, hevictions⟩ := account_of_run holds_empty hrun
  have hadded : added es = evicted es ++ q.keys := haccount.symm
  refine ⟨⟨?_, ?_⟩, ?_, ?_, ⟨?_, ?_⟩, ?_⟩
  · rw [hholds.order]
    exact q.nodup
  · intro pos
    rw [hholds.order, hholds.mem_iff]
  · rw [hholds.length_eq]
    exact q.length_le
  · rw [hholds.cachedBlocks, hholds.length_eq]
  · rw [hadded, List.length_append, hholds.length_eq]
  · rw [hevictions]
    exact UInt64.zero_add _
  · intro past future thread pos block res before after heq
    subst heq
    obtain ⟨c₁, c₂, hpast, hstep, -⟩ := split_of_run hrun
    obtain ⟨q₁, hholds₁, haccount₁, -⟩ := account_of_run holds_empty hpast
    have hbefore : before = c₁.shared := hstep.before_eq
    have hafter : after = c₂.shared := hstep.after_eq
    have heffect : CacheStep data before (.insert pos block) res after := by
      rw [hbefore, hafter]
      exact hstep.effect
    rw [← hbefore] at hholds₁
    obtain ⟨hres, hcache⟩ : res = (before.insert pos block).1
        ∧ after = (before.insert pos block).2 := by
      cases heffect
      exact ⟨rfl, rfl⟩
    refine ⟨?_, fun hnew => ⟨?_, ?_⟩⟩
    · intro existing hlookup
      rw [hres, hcache, insert_of_held hholds₁ hlookup]
      exact ⟨rfl, rfl⟩
    · exact counter_of_evict hholds₁
    · intro hfull
      have hlength : 0 < q₁.keys.length := by
        rw [← hholds₁.length_eq, hfull]
        decide
      obtain ⟨oldest, kept, hkeys⟩ := List.exists_cons_of_length_pos hlength
      have horder : before.inner.order = oldest :: kept :=
        hholds₁.order.trans hkeys
      have hinsert := @insert_of_full _ _ hholds₁ pos oldest kept block hnew
        hfull horder
      rw [hinsert] at hres hcache
      refine ⟨oldest, kept, ?_, horder, ?_, hres, ?_⟩
      · rw [← hkeys]
        exact haccount₁.symm
      · rw [hcache]
      · intro p
        rw [hcache]
        dsimp only
        by_cases hp : p = pos
        · rw [if_pos hp, hp, AList.lookup_insert]
        · rw [if_neg hp, AList.lookup_insert_ne hp]
          by_cases hold : p = oldest
          · rw [if_pos hold, hold, AList.lookup_erase]
          · rw [if_neg hold, AList.lookup_erase_ne hold]

end

/-- Two threads that both missed a block insert it, one after the other:
the first block stays, and counts once. -/
theorem both_insert :
    ∃ es final, Run (CacheStep [])
        ⟨{}, [cacheInsert 0 [1], cacheInsert 0 [2]]⟩ es final
      ∧ added es = [0]
      ∧ final.shared.inner.blocks.lookup 0 = some [1]
      ∧ final.shared.metrics.cachedBlocks.toNat
        = final.shared.inner.blocks.entries.length := by
  have hrun := Run.cons
    (@step_of_call _ _ ReadFault Bytes _ _
      ⟨{}, [cacheInsert 0 [1], cacheInsert 0 [2]]⟩ 0 _ _ _ _ rfl
      (@CacheStep.insert [] {} 0 [1]))
    (Run.cons
      (step_of_call 1 rfl
        (CacheStep.insert (ArchiveReadCache.insert {} 0 [1]).2 0 [2]))
      (Run.nil _))
  exact ⟨_, _, hrun, rfl, rfl, (cache_bookkeeping hrun).2.2.1⟩

end PaimonFtindex.Proofs
