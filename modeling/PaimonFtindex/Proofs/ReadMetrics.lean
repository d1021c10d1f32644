/-
What the read metrics add up to.

The counters are bumped one at a time, from every thread, and nothing
keeps them together. They add up all the same: each counts the steps of
its kind in the run (`counted_of_run`), and a call goes one of few ways
through them. A call within one block looks it up once and then either
hits or misses; a call that reads anything either hits or reads the
input once. So when no call is under way, hits and misses are the calls
within one block, and hits and reads are all calls that read.
-/
import PaimonFtindex.Proofs.CacheBookkeeping
import PaimonFtindex.Proofs.ReadPanics

namespace PaimonFtindex.Proofs

open Model Lib

-- ============================================================== the weights

/-- A step of a call. -/
abbrev CacheStepped : Type := Prog.Performed CacheOp CacheOp.Res

/-- A lookup that found its block. -/
def hitWeight : CacheStepped → Nat
  | ⟨.get _, .ok (some _)⟩ => 1
  | _ => 0

def missWeight : CacheStepped → Nat
  | ⟨.recordMiss, _⟩ => 1
  | _ => 0

def preadWeight : CacheStepped → Nat
  | ⟨.pread _ _, _⟩ => 1
  | _ => 0

/-- The bytes a step asks the input for. -/
def byteWeight : CacheStepped → Nat
  | ⟨.pread _ len, _⟩ => len.toNat
  | _ => 0

def insertWeight : CacheStepped → Nat
  | ⟨.insert _ _, _⟩ => 1
  | _ => 0

-- ============================================================= the counters

section
variable {α : Type} {data : Bytes} {es : List CacheEvent}
  {c c' : Config CacheOp CacheOp.Res ReadFault α ArchiveReadCache}

/-- The counters of `after` are those of `before` and so much more. -/
structure Counts (before after : ReadMetrics)
    (hits misses preads bytes : Nat) : Prop where
  hits : after.cacheHits = before.cacheHits + UInt64.ofNat hits
  misses : after.cacheMisses = before.cacheMisses + UInt64.ofNat misses
  preadCalls : after.preadCalls = before.preadCalls + UInt64.ofNat preads
  preadRanges : after.preadRanges = before.preadRanges + UInt64.ofNat preads
  preadBytes : after.preadBytes = before.preadBytes + UInt64.ofNat bytes

theorem Counts.refl (m : ReadMetrics) : Counts m m 0 0 0 0 := by
  constructor <;> exact (UInt64.add_zero _).symm

theorem Counts.trans {m m' m'' : ReadMetrics} {h h' n n' p p' b b' : Nat}
    (h₁ : Counts m m' h n p b) (h₂ : Counts m' m'' h' n' p' b') :
    Counts m m'' (h + h') (n + n') (p + p') (b + b') := by
  obtain ⟨a₁, a₂, a₃, a₄, a₅⟩ := h₁
  obtain ⟨b₁, b₂, b₃, b₄, b₅⟩ := h₂
  refine ⟨?_, ?_, ?_, ?_, ?_⟩
  · rw [b₁, a₁, UInt64.ofNat_add, UInt64.add_assoc]
  · rw [b₂, a₂, UInt64.ofNat_add, UInt64.add_assoc]
  · rw [b₃, a₃, UInt64.ofNat_add, UInt64.add_assoc]
  · rw [b₄, a₄, UInt64.ofNat_add, UInt64.add_assoc]
  · rw [b₅, a₅, UInt64.ofNat_add, UInt64.add_assoc]

/-- An eviction counts for neither. -/
theorem counts_of_evict (blocks : AList (fun _ : UInt64 => Bytes))
    (order : List UInt64) (m : ReadMetrics) :
    Counts m (evict blocks m order).2 0 0 0 0 := by
  induction order generalizing blocks m with
  | nil => exact Counts.refl m
  | cons pos order ih =>
      have hevicted : Counts m m.recordCacheEviction 0 0 0 0 := by
        constructor <;> exact (UInt64.add_zero _).symm
      unfold evict
      split
      · exact hevicted.trans (ih _ _)
      · exact Counts.refl m

/-- A step counts what it weighs. -/
theorem counts_of_step {cache cache' : ArchiveReadCache} {op : CacheOp}
    {r : op.Res} (h : CacheStep data cache op r cache') :
    Counts cache.metrics cache'.metrics (hitWeight ⟨op, r⟩)
      (missWeight ⟨op, r⟩) (preadWeight ⟨op, r⟩) (byteWeight ⟨op, r⟩) := by
  cases h with
  | get pos =>
      unfold ArchiveReadCache.get
      by_cases hpoisoned : cache.poisoned = true
      · rw [if_pos hpoisoned]
        exact Counts.refl _
      · rw [if_neg hpoisoned]
        cases cache.inner.blocks.lookup pos with
        | none => exact Counts.refl _
        | some block =>
            refine ⟨rfl, ?_, ?_, ?_, ?_⟩ <;> exact (UInt64.add_zero _).symm
  | recordMiss =>
      refine ⟨?_, rfl, ?_, ?_, ?_⟩ <;> exact (UInt64.add_zero _).symm
  | pread pos len hle =>
      refine ⟨(UInt64.add_zero _).symm, (UInt64.add_zero _).symm, rfl, rfl, ?_⟩
      show _ = _ + UInt64.ofNat len.toNat
      rw [UInt64.ofNat_toNat]
      rfl
  | preadError pos len error =>
      refine ⟨(UInt64.add_zero _).symm, (UInt64.add_zero _).symm, rfl, rfl, ?_⟩
      show _ = _ + UInt64.ofNat len.toNat
      rw [UInt64.ofNat_toNat]
      rfl
  | insert pos block =>
      unfold ArchiveReadCache.insert
      by_cases hpoisoned : cache.poisoned = true
      · rw [if_pos hpoisoned]
        exact Counts.refl _
      · rw [if_neg hpoisoned]
        cases cache.inner.blocks.lookup pos with
        | some existing => exact Counts.refl _
        | none =>
            have hevict := counts_of_evict cache.inner.blocks cache.inner.order
              cache.metrics
            exact ⟨hevict.hits, hevict.misses, hevict.preadCalls,
              hevict.preadRanges, hevict.preadBytes⟩

/-- The counters count the steps of the run. -/
theorem counted_of_run (h : Run (CacheStep data) c es c') :
    Counts c.shared.metrics c'.shared.metrics (total hitWeight es)
      (total missWeight es) (total preadWeight es) (total byteWeight es) := by
  induction h with
  | nil c => exact Counts.refl _
  | cons step rest ih => exact (counts_of_step step.effect).trans ih

/-- Only an insert adds a position. -/
theorem added_length_le (es : List CacheEvent) :
    (added es).length ≤ total insertWeight es := by
  induction es with
  | nil => exact Nat.le_refl _
  | cons e es ih =>
      have hadded : (addedBy e.before e.op).length
          ≤ insertWeight ⟨e.op, e.res⟩ := by
        obtain ⟨thread, op, res, before, after⟩ := e
        cases op with
        | insert pos block =>
            dsimp only [addedBy]
            split
            · exact Nat.zero_le _
            · exact Nat.le_refl _
        | get pos => exact Nat.zero_le _
        | recordMiss => exact Nat.zero_le _
        | pread pos len => exact Nat.zero_le _
      unfold added at ih ⊢
      rw [List.flatMap_cons, List.length_append]
      exact Nat.add_le_add hadded ih

end

-- ================================================================ the ways

/-- The file ends below `isize::MAX`. -/
def Addressable (handle : ArchiveFileHandle) : Prop :=
  handle.start.toNat + handle.length.toNat < 2 ^ 63

/-- The call reads at least one byte of its file. -/
def ReadCall.Reads (call : ReadCall) : Prop :=
  call.range.start < call.range.stop ∧ call.range.stop ≤ call.handle.length

/-- And all of them in one block. -/
def ReadCall.InBlock (call : ReadCall) : Prop :=
  call.Reads
    ∧ call.range.stop.toNat ≤ call.range.start.toNat / 65536 * 65536 + 65536

instance (call : ReadCall) : Decidable call.Reads :=
  inferInstanceAs (Decidable (_ ∧ _))

instance (call : ReadCall) : Decidable call.InBlock :=
  inferInstanceAs (Decidable (_ ∧ _))

section
variable {build : Build} {call : ReadCall}

/-- Nothing is done for a range that is refused or empty. -/
theorem quiet_of_not_reads (h : ¬ call.Reads) :
    (call.handle.readBytes build call.range).Quiet := by
  unfold ArchiveFileHandle.readBytes
  by_cases hvalid : call.range.stop < call.range.start
      ∨ call.handle.length < call.range.stop
  · rw [if_pos hvalid]
    trivial
  · rw [if_neg hvalid, if_pos]
    · trivial
    · rw [not_or, UInt64.not_lt, UInt64.not_lt] at hvalid
      unfold ByteRange.isEmpty
      simp only [Bool.not_eq_true', decide_eq_false_iff_not]
      exact fun hlt => h ⟨hlt, hvalid.2⟩

/-- The block the range starts in: its start, its limit and its end. -/
theorem block_spec (haddr : Addressable call.handle) (h : call.Reads) :
    ∃ blockStart limit,
      call.range.start / readCacheBlockBytes * readCacheBlockBytes = blockStart
        ∧ blockStart.toNat = call.range.start.toNat / 65536 * 65536
        ∧ uncheckedAdd build blockStart readCacheBlockBytes = some limit
        ∧ (min call.handle.length limit).toNat
          = min call.handle.length.toNat (blockStart.toNat + 65536) := by
  have hB : readCacheBlockBytes.toNat = 65536 := rfl
  have hlt := UInt64.lt_iff_toNat_lt.mp h.1
  have hstop := UInt64.le_iff_toNat_le.mp h.2
  unfold Addressable at haddr
  have hstart := blockStart_toNat call.range.start
  refine ⟨_, _, rfl, hstart, uncheckedAdd_of_lt (by omega), ?_⟩
  have hlimit : (call.range.start / readCacheBlockBytes * readCacheBlockBytes
      + readCacheBlockBytes).toNat
        = call.range.start.toNat / 65536 * 65536 + 65536 := by
    rw [UInt64.toNat_add, hstart, hB]
    omega
  rw [UInt64.min_def]
  split
  · rename_i hle
    rw [UInt64.le_iff_toNat_le, hlimit] at hle
    omega
  · rename_i hle
    rw [UInt64.le_iff_toNat_le, hlimit] at hle
    omega

/-- The three ways of a call: nothing to do, one block through the
cache, or straight from the input. -/
theorem readBytes_cases {motive : ReadProg Bytes → Prop}
    (haddr : Addressable call.handle)
    (hnone : ¬ call.Reads →
      ∀ p : ReadProg Bytes, p.Quiet → motive p)
    (hblock : call.InBlock → ∀ pos blockStart blockEnd len K,
      uncheckedSub build blockEnd blockStart = some len → len.toNat < 2 ^ 63 →
      (∀ block, (K block).Quiet) →
      motive (fetchBlock build pos blockStart blockEnd >>= K))
    (hdirect : call.Reads → ¬ call.InBlock → ∀ pos len,
      motive (readDirect pos len)) :
    motive (call.handle.readBytes build call.range) := by
  by_cases hreads : call.Reads
  · obtain ⟨blockStart, limit, hstart, hstartNat, hlimit, hend⟩ :=
      @block_spec build call haddr hreads
    have hB : readCacheBlockBytes.toNat = 65536 := rfl
    have hlt := UInt64.lt_iff_toNat_lt.mp hreads.1
    have hstop := UInt64.le_iff_toNat_le.mp hreads.2
    have hlen := range_len_toNat (Nat.le_of_lt hlt)
    unfold Addressable at haddr
    have hposition : ∀ relative : UInt64,
        relative.toNat ≤ call.handle.length.toNat →
        call.handle.position relative = .ret (call.handle.start + relative) := by
      intro relative hle
      unfold ArchiveFileHandle.position checkedAdd
      rw [if_pos (by omega)]
    have hzeroed : zeroed call.range.len = .ret () := by
      unfold zeroed
      rw [if_neg (by omega)]
    unfold ArchiveFileHandle.readBytes
    rw [if_neg (not_invalid (UInt64.le_of_lt hreads.1) hreads.2),
      if_neg (isEmpty_of_lt hreads.1)]
    unfold ArchiveFileHandle.readCachedBlock
    by_cases hin : call.InBlock
    · have hshort : ¬ readCacheBlockBytes < call.range.len := by
        rw [UInt64.lt_iff_toNat_lt, hlen]
        have := hin.2
        omega
      have hwithin : ¬ min call.handle.length limit < call.range.stop := by
        rw [UInt64.lt_iff_toNat_lt, hend]
        have := hin.2
        omega
      rw [if_neg hshort]
      dsimp only
      rw [hstart, hlimit]
      show motive ((if _ then _ else _) >>= _ : ReadProg Bytes)
      rw [if_neg hwithin, hposition _ (by omega)]
      simp only [Prog.ret_bind, Prog.bind_assoc]
      refine hblock hin _ _ _ _ _ (uncheckedSub_of_le (by omega)) ?_ ?_
      · rw [toNat_sub_of_le (by omega)]
        omega
      · intro block
        refine (quiet_orPanic _ _).bind fun start => ?_
        refine (quiet_orPanic _ _).bind fun stop => ?_
        exact (quiet_sliceBlock block start stop).bind fun _ => trivial
    · by_cases hlong : readCacheBlockBytes < call.range.len
      · rw [if_pos hlong]
        show motive (call.handle.position call.range.start >>= fun _ => _)
        rw [hposition _ (by omega), Prog.ret_bind, hzeroed, Prog.ret_bind]
        exact hdirect hreads hin _ _
      · have hbeyond : min call.handle.length limit < call.range.stop := by
          rw [UInt64.lt_iff_toNat_lt, hend]
          have : ¬ call.range.stop.toNat
              ≤ call.range.start.toNat / 65536 * 65536 + 65536 :=
            fun hle => hin ⟨hreads, hle⟩
          omega
        rw [if_neg hlong]
        dsimp only
        rw [hstart, hlimit]
        show motive ((if _ then _ else _) >>= _ : ReadProg Bytes)
        rw [if_pos hbeyond]
        show motive (call.handle.position call.range.start >>= fun _ => _)
        rw [hposition _ (by omega), Prog.ret_bind, hzeroed, Prog.ret_bind]
        exact hdirect hreads hin _ _
  · exact hnone hreads _ (quiet_of_not_reads hreads)

/-- What some steps weigh. -/
def weigh (w : CacheStepped → Nat) (steps : List CacheStepped) : Nat :=
  (steps.map w).sum

/-- Some steps of a call that looks up at most `lookups` blocks and
fetches bytes at most `fetches` times. -/
structure WithinWay (lookups fetches : Nat) (steps : List CacheStepped) :
    Prop where
  lookups : weigh hitWeight steps + weigh missWeight steps ≤ lookups
  fetches : weigh hitWeight steps + weigh preadWeight steps ≤ fetches
  inserts : weigh insertWeight steps ≤ weigh missWeight steps

/-- All steps of a call: it has looked up and fetched that often. -/
structure WholeWay (lookups fetches : Nat) (steps : List CacheStepped) :
    Prop where
  lookups : weigh hitWeight steps + weigh missWeight steps = lookups
  fetches : weigh hitWeight steps + weigh preadWeight steps = fetches

theorem withinWay_nil (lookups fetches : Nat) :
    WithinWay lookups fetches [] :=
  ⟨Nat.zero_le _, Nat.zero_le _, Nat.le_refl _⟩

theorem withinWay_of_ble {lookups fetches : Nat} {steps : List CacheStepped}
    (hlookups : Nat.ble (weigh hitWeight steps + weigh missWeight steps)
      lookups = true)
    (hfetches : Nat.ble (weigh hitWeight steps + weigh preadWeight steps)
      fetches = true)
    (hinserts : Nat.ble (weigh insertWeight steps) (weigh missWeight steps)
      = true) : WithinWay lookups fetches steps :=
  ⟨Nat.le_of_ble_eq_true hlookups, Nat.le_of_ble_eq_true hfetches,
    Nat.le_of_ble_eq_true hinserts⟩

/-- No lock is poisoned. -/
def Unpoisoned : (op : CacheOp) → op.Res → Prop
  | .get _, r => ∃ cached, r = .ok cached
  | .recordMiss, _ => True
  | .pread _ _, _ => True
  | .insert _ _, _ => True

/-- Fetching a block: a hit, or a miss and one read. -/
theorem always_withinWay {pos blockStart blockEnd : UInt64}
    {K : Bytes → ReadProg Bytes} (hK : ∀ block, (K block).Quiet) :
    (fetchBlock build pos blockStart blockEnd >>= K).Always
      (WithinWay 1 1) := by
  have hnil := withinWay_nil 1 1
  unfold fetchBlock
  rw [Prog.bind_assoc]
  refine ⟨hnil, fun r => ?_⟩
  cases r with
  | error error => exact withinWay_of_ble rfl rfl rfl
  | ok cached =>
      cases cached with
      | some block =>
          exact (hK block).always (withinWay_of_ble rfl rfl rfl)
      | none =>
          show Prog.Always _ (loadBlock build pos blockStart blockEnd >>= K)
          unfold loadBlock
          rw [Prog.bind_assoc]
          refine ⟨withinWay_of_ble rfl rfl rfl, fun r' => ?_⟩
          generalize uncheckedSub build blockEnd blockStart = difference
          show ((orPanic .arithmeticOverflow difference >>= _) >>= K).Always _
          rw [Prog.bind_assoc]
          refine (quiet_orPanic _ difference).always_bind ?_ fun len => ?_
          · exact withinWay_of_ble rfl rfl rfl
          rw [Prog.bind_assoc]
          refine (quiet_zeroed len).always_bind ?_ fun _ => ?_
          · exact withinWay_of_ble rfl rfl rfl
          refine ⟨withinWay_of_ble rfl rfl rfl, fun read => ?_⟩
          cases read with
          | error error => exact withinWay_of_ble rfl rfl rfl
          | ok block =>
              refine ⟨withinWay_of_ble rfl rfl rfl, fun r'' => ?_⟩
              refine ((quiet_orIo r'').bind hK).always ?_
              exact withinWay_of_ble rfl rfl rfl

theorem ends_wholeWay {pos blockStart blockEnd len : UInt64}
    {K : Bytes → ReadProg Bytes} (hK : ∀ block, (K block).Quiet)
    (hlen : uncheckedSub build blockEnd blockStart = some len)
    (hlt : len.toNat < 2 ^ 63) :
    (fetchBlock build pos blockStart blockEnd >>= K).Ends Unpoisoned
      fun steps _ => WholeWay 1 1 steps := by
  have hzeroed : zeroed len = .ret () := by
    unfold zeroed
    rw [if_neg (by omega)]
  unfold fetchBlock
  rw [Prog.bind_assoc]
  intro r hr
  obtain ⟨cached, rfl⟩ := hr
  cases cached with
  | some block => exact (hK block).ends fun _ => ⟨rfl, rfl⟩
  | none =>
      unfold loadBlock
      rw [hlen]
      show ((_ >>= _) >>= K).Ends _ _
      rw [Prog.bind_assoc]
      intro _ _
      show ((zeroed len >>= _) >>= K).Ends _ _
      rw [hzeroed, Prog.ret_bind]
      intro read _
      cases read with
      | error error => exact ⟨rfl, rfl⟩
      | ok block =>
          intro r'' _
          exact ((quiet_orIo r'').bind hK).ends fun _ => ⟨rfl, rfl⟩

/-- One if it is so. -/
def one (p : Prop) [Decidable p] : Nat := if p then 1 else 0

/-- On the way, a call has looked up a block only if it reads in one,
and fetched bytes only if it reads. -/
theorem always_readBytes_within (haddr : Addressable call.handle) :
    (call.handle.readBytes build call.range).Always
      (WithinWay (one call.InBlock) (one call.Reads)) := by
  apply readBytes_cases haddr
  · intro hreads p hp
    exact hp.always (withinWay_nil _ _)
  · intro hin pos blockStart blockEnd len K _ _ hK
    unfold one
    rw [if_pos hin, if_pos hin.1]
    exact always_withinWay hK
  · intro hreads hin pos len
    unfold one
    rw [if_neg hin, if_pos hreads]
    refine ⟨withinWay_nil 0 1, fun r => (quiet_orIo r).always ?_⟩
    exact withinWay_of_ble rfl rfl rfl

/-- At its end it has done so. -/
theorem ends_readBytes (haddr : Addressable call.handle) :
    (call.handle.readBytes build call.range).Ends Unpoisoned
      fun steps _ => WholeWay (one call.InBlock) (one call.Reads) steps := by
  apply readBytes_cases haddr
  · intro hreads p hp
    unfold one
    rw [if_neg hreads, if_neg fun hin => hreads hin.1]
    exact hp.ends fun _ => ⟨rfl, rfl⟩
  · intro hin pos blockStart blockEnd len K hlen hlt hK
    unfold one
    rw [if_pos hin, if_pos hin.1]
    exact ends_wholeWay hK hlen hlt
  · intro hreads hin pos len
    unfold one
    rw [if_neg hin, if_pos hreads]
    intro r _
    exact (quiet_orIo r).ends fun _ => ⟨rfl, rfl⟩

end

-- ================================================================= the runs

/-- No step poisons the lock, so every lookup answers. -/
theorem unpoisoned_contract (data : Bytes) :
    Contract (CacheStep data) (fun cache => cache.poisoned = false)
      (fun _ _ => True) Unpoisoned := by
  intro cache i op r cache' h _ hstep
  have hfree : ¬ cache.poisoned = true := by simp [h]
  cases hstep with
  | get pos =>
      unfold ArchiveReadCache.get
      rw [if_neg hfree]
      cases cache.inner.blocks.lookup pos with
      | none => exact ⟨h, none, rfl⟩
      | some block => exact ⟨h, some block, rfl⟩
  | recordMiss => exact ⟨h, trivial⟩
  | pread pos len hle => exact ⟨h, trivial⟩
  | preadError pos len error => exact ⟨h, trivial⟩
  | insert pos block =>
      unfold ArchiveReadCache.insert
      rw [if_neg hfree]
      cases cache.inner.blocks.lookup pos with
      | none => exact ⟨h, trivial⟩
      | some existing => exact ⟨h, trivial⟩

theorem sum_one {β : Type} (p : β → Prop) [DecidablePred p] (xs : List β) :
    (xs.map fun x => one (p x)).sum = xs.countP p := by
  induction xs with
  | nil => rfl
  | cons x xs ih =>
      rw [List.map_cons, List.sum_cons, ih, List.countP_cons, Nat.add_comm]
      unfold one
      simp only [decide_eq_true_eq]

section
variable {build : Build} {data : Bytes} {calls : List ReadCall}
  {es : List CacheEvent}
  {final : Config CacheOp CacheOp.Res ReadFault Bytes ArchiveReadCache}

theorem unpoisoned_of_run
    (hrun : Run (CacheStep data) (readCalls build calls) es final) :
    ∀ e ∈ es, Unpoisoned e.op e.res := by
  have hstart : AllSafe (fun cache : ArchiveReadCache => cache.poisoned = false)
      (fun _ _ => True) Unpoisoned (fun _ _ => True) (readCalls build calls) :=
    ⟨rfl, fun i p _ => p.safe_trivial⟩
  exact fun e he => ((safe_of_run (unpoisoned_contract data) hstart hrun).2 e he).2

/-- Two weights together. -/
theorem weigh_add (w w' : CacheStepped → Nat) (steps : List CacheStepped) :
    weigh (fun step => w step + w' step) steps
      = weigh w steps + weigh w' steps :=
  List.sum_map_add

theorem total_add (w w' : CacheStepped → Nat) (es : List CacheEvent) :
    total (fun step => w step + w' step) es = total w es + total w' es :=
  List.sum_map_add

end

end PaimonFtindex.Proofs
