import SavanXP.Block.Moves

/-!
# A failed disk and the others

A device that refuses a background write keeps its record at the head of the
queue, and with it everything behind.  A device that refuses the flush at the
end of a drain has nothing queued: the others go on, but every drain asks for
that flush again.
-/

namespace SavanXP.Block

open SavanXP.Library List Function

variable {S : Type}

/-- Every device but one does what its driver is asked for. -/
def Reliable (w : World) (broken : Nat) : Prop :=
  ∀ tick i, i ≠ broken →
    (w tick (.write i)).granted = true ∧ (w tick (.flush i)).granted = true

/-! ## Only the broken device fails -/

/-- No other device is marked as failed or cleared. -/
def Spares (broken : Nat) (s s' : State S) : Prop :=
  ∀ i, i ≠ broken → (s'.devices i).failed = (s.devices i).failed

theorem Spares.refl (broken : Nat) (s : State S) : Spares broken s s := fun _ _ => rfl

theorem Spares.trans {broken : Nat} {first second third : State S}
    (one : Spares broken first second)
    (two : Spares broken second third) : Spares broken first third :=
  fun i ne => (two i ne).trans (one i ne)

theorem spares_of_update {broken i : Nat} {s s' : State S} {dev : Device S}
    (devices : s'.devices = update s.devices i dev)
    (same : i ≠ broken → dev.failed = (s.devices i).failed) : Spares broken s s' := by
  intro o ne
  rw [devices]
  by_cases here : o = i
  · rw [here, update_self]
    exact same (here ▸ ne)
  · rw [update_of_ne here]

section Spares

variable {w : World} {broken : Nat} (reliable : Reliable w broken)

include reliable

variable (s : State S)

theorem step_spares : Spares broken s (step w s).2 := by
  unfold step
  split
  · exact .refl _ _
  next r rest queue =>
  split
  · exact .refl _ _
  split
  · obtain ⟨dev, devices, _, ⟨_, _, refused, _⟩ | ⟨_, _, _, rfl, _⟩⟩ := stepOrder_cases w s r.device
    · refine spares_of_update devices fun ne => ?_
      rw [(reliable _ _ ne).2] at refused
      cases refused
    · exact spares_of_update devices fun _ => rfl
  · obtain ⟨dev, head, merged, tail, _, devices, _, ⟨_, _, refused, _⟩ | ⟨_, rfl, _⟩⟩ :=
      stepWrite_cases w s r rest queue
    · refine spares_of_update devices fun ne => ?_
      rw [(reliable _ _ ne).1] at refused
      cases refused
    · exact spares_of_update devices fun _ => rfl

omit s in
theorem Moves.spares {p q : State S × Links} (moves : Moves w p q) : Spares broken p.1 q.1 := by
  induction moves with
  | refl => exact .refl _ _
  | tail _ move ih =>
    refine ih.trans ?_
    cases move with
    | touch _ _ failed =>
      intro i ne
      rcases failed i with same | ⟨tick, refused⟩
      · exact same
      · rw [(reliable tick i ne).2] at refused
        cases refused
    | step s => exact step_spares reliable s
    | add _ _ _ _ devices =>
      intro i _
      rw [devices]

/-- What moves the queue marks no other device. -/
theorem Goes.spares {t : State S} (goes : Goes w s t) : Spares broken s t := by
  obtain ⟨links, linked⟩ := exists_linked s
  obtain ⟨_, moves⟩ := goes links linked
  exact moves.spares reliable

end Spares

/-! ## Nothing of the broken device is queued -/

/-- Only the broken device is marked as failed, and none of its records is in
the queue. -/
structure Calm (s : State S) (broken : Nat) : Prop where
  only : ∀ i, (s.devices i).failed = true → i = broken
  clear : ∀ r ∈ s.queue, r.device ≠ broken

variable {s : State S}

theorem Calm.spared {s' : State S} {broken : Nat} (calm : Calm s broken)
    (spares : Spares broken s s') (clear : ∀ r ∈ s'.queue, r.device ≠ broken) : Calm s' broken := by
  refine ⟨fun i failed => ?_, clear⟩
  by_contra ne
  rw [spares i ne] at failed
  exact ne (calm.only i failed)

/-- A flush of the broken device, should a drain ask for it, succeeds. -/
def Parked (w : World) (s : State S) (broken : Nat) : Prop :=
  (s.devices broken).unflushed = false ∨ (s.devices broken).hasFlush = false ∨
    ∀ tick, (w tick (.flush broken)).granted = true

theorem work_cons {r : Pending S} {rest : List (Pending S)}
    (queue : s.queue = r :: rest) : s.work = r.data.length - r.written + 1 +
      (rest.map fun r => r.data.length - r.written + 1).sum := by
  rw [State.work, queue, map_cons, sum_cons]

theorem deviceForIndex_eq {i : Nat} (ins : i < s.deviceCount)
    (present : (s.devices i).present = true) : deviceForIndex s i = some (s.devices i) := by
  unfold deviceForIndex
  rw [if_neg]
  rw [not_or, Nat.not_le, Bool.not_eq_false]
  exact ⟨ins, present⟩

section Progress

variable {w : World} {broken : Nat} (reliable : Reliable w broken)

include reliable

/-- With the broken device out of the way, every step makes progress. -/
theorem step_progress (calm : Calm s broken) (busy : s.queue ≠ []) :
    (step w s).1 = true ∧ Calm (step w s).2 broken ∧ (step w s).2.work < s.work ∧
      (step w s).2.devices broken = s.devices broken := by
  have spares := step_spares reliable s
  cases queue : s.queue with
  | nil => exact absurd queue busy
  | cons r rest =>
  have clear := calm.clear
  rw [queue] at clear
  obtain ⟨ne, restClear⟩ := forall_mem_cons.mp clear
  have healthy : (s.devices r.device).failed ≠ true := fun failed =>
    ne (calm.only r.device failed)
  have work := work_cons queue
  have unfolded : step w s = if r.data.length = 0 then stepOrder w s r.device
      else stepWrite w s r rest := by
    rw [step, queue]
    exact if_neg healthy
  by_cases point : r.data.length = 0
  · rw [if_pos point] at unfolded
    rw [unfolded] at spares ⊢
    obtain ⟨dev, devices, _, ⟨_, _, refused, _⟩ | ⟨done, popped, _⟩⟩ := stepOrder_cases w s r.device
    · rw [(reliable _ _ ne).2] at refused
      cases refused
    rw [queue] at popped
    refine ⟨done, calm.spared spares ?_, ?_, ?_⟩
    · rw [popped]
      exact restClear
    · rw [work, State.work, popped, tail_cons]
      omega
    · rw [devices, update_of_ne ne.symm]
  · rw [if_neg point] at unfolded
    rw [unfolded] at spares ⊢
    obtain ⟨dev, head, merged, tail, portion, devices, _, ⟨_, _, refused, _⟩ | ⟨done, _, left⟩⟩ :=
      stepWrite_cases w s r rest queue
    · rw [(reliable _ _ ne).1] at refused
      cases refused
    have kept : (stepWrite w s r rest).2.devices broken = s.devices broken := by
      rw [devices, update_of_ne ne.symm]
    rcases left with ⟨popped, _⟩ | ⟨shrunk, _, proper⟩
    · refine ⟨done, calm.spared spares ?_, ?_, kept⟩
      · rw [popped]
        exact fun o ins => restClear o (portion.parts ▸ mem_append_right _ ins)
      · rw [work, State.work, popped, portion.parts, map_append, sum_append]
        omega
    · refine ⟨done, calm.spared spares ?_, ?_, kept⟩
      · rw [shrunk]
        exact forall_mem_cons.mpr ⟨ne, restClear⟩
      have long := length_pos_of_ne_nil proper
      have short := portion.first.length_le
      rw [length_drop] at short
      rw [work, work_cons shrunk]
      dsimp only
      omega

theorem makeRoomLoop_progress {bytes rounds : Nat} {s : State S} (calm : Calm s broken)
    (enough : s.work < rounds) : (makeRoomLoop w bytes rounds s).1 = true ∧
      Calm (makeRoomLoop w bytes rounds s).2 broken ∧
      (makeRoomLoop w bytes rounds s).2.devices broken = s.devices broken := by
  induction rounds generalizing s with
  | zero => exact absurd enough (Nat.not_lt_zero _)
  | succ rounds ih =>
    unfold makeRoomLoop
    split
    · next full =>
      have busy : s.queue ≠ [] := fun empty => full.1 (congrArg List.length empty)
      obtain ⟨done, calmNext, less, kept⟩ := step_progress reliable calm busy
      rw [if_neg (by simp [done])]
      obtain ⟨success, calmLast, keptLast⟩ := ih calmNext (by omega)
      exact ⟨success, calmLast, keptLast.trans kept⟩
    · exact ⟨rfl, calm, rfl⟩


theorem drainDevice_progress {drained : Bool × State S} (i : Nat)
    (parked : Parked w drained.2 broken) : (drainDevice w drained i).1 = drained.1 ∧
      Parked w (drainDevice w drained i).2 broken := by
  rcases drainDevice_cases w drained i with ⟨same, _⟩ | ⟨_, dev, devices, _, _, res⟩
  · rw [same]
    exact ⟨rfl, parked⟩
  rcases res with ⟨_, dirty, hasFlush, ⟨tick, refused⟩, _⟩ | ⟨same, rfl⟩
  · by_cases here : i = broken
    · rw [here] at dirty hasFlush refused
      rcases parked with clean | without | granted
      · rw [clean] at dirty
        cases dirty
      · rw [without] at hasFlush
        cases hasFlush
      · rw [granted tick] at refused
        cases refused
    · rw [(reliable tick i here).2] at refused
      cases refused
  · refine ⟨same, ?_⟩
    unfold Parked
    rw [devices]
    by_cases here : broken = i
    · rw [here, update_self]
      exact .inl rfl
    · rw [update_of_ne here]
      exact parked

theorem drainDevices_progress (indices : List Nat) {drained : Bool × State S}
    (parked : Parked w drained.2 broken) : (indices.foldl (drainDevice w) drained).1 = drained.1 ∧
      Parked w (indices.foldl (drainDevice w) drained).2 broken := by
  induction indices generalizing drained with
  | nil => exact ⟨rfl, parked⟩
  | cons first rest ih =>
    obtain ⟨same, parkedNext⟩ := drainDevice_progress reliable first parked
    obtain ⟨sameLast, parkedLast⟩ := ih parkedNext
    exact ⟨sameLast.trans same, parkedLast⟩

omit reliable in
theorem drainDevices_queue (indices : List Nat) (drained : Bool × State S) :
    (indices.foldl (drainDevice w) drained).2.queue = drained.2.queue := by
  induction indices generalizing drained with
  | nil => rfl
  | cons first rest ih =>
    refine (ih _).trans ?_
    rcases drainDevice_cases w drained first with ⟨same, _⟩ | ⟨_, _, _, _, queue, _⟩
    · rw [same]
    · exact queue

theorem drainAll_progress (calm : Calm s broken) :
    (drainAll w s).2.queue = [] ∧ Calm (drainAll w s).2 broken ∧ (Parked w s broken →
        (drainAll w s).1 = true ∧ Parked w (drainAll w s).2 broken) := by
  obtain ⟨success, _, kept⟩ := @makeRoomLoop_progress S w broken reliable
    (maxQueuedBytes + 1) _ s calm
    (Nat.lt_succ_self s.work)
  rw [← drainQueue_eq] at success kept
  have spares := Goes.spares reliable s (Goes.drainAll s)
  have shape : drainAll w s = (List.range (drainQueue w (s.work + 1) s).2.deviceCount).foldl
      (drainDevice w) (true, (drainQueue w (s.work + 1) s).2) := by
    unfold drainAll
    rw [if_neg (by rw [success]; exact nofun)]
  have emptied : (drainAll w s).2.queue = [] := by
    rw [shape, drainDevices_queue]
    exact drainQueue_empty w success
  refine ⟨emptied, calm.spared spares (by rw [emptied]; exact nofun), fun parked => ?_⟩
  rw [shape]
  refine drainDevices_progress reliable _ ?_
  unfold Parked at parked ⊢
  rw [kept]
  exact parked

section Calls

variable {i : Nat} (ne : i ≠ broken)

include ne

theorem writeUncached_progress {lba : Nat} {data : List S}
    (success : (drainAll w s).1 = true) (empty : (drainAll w s).2.queue = [])
    (calm : Calm (drainAll w s).2 broken) (parked : Parked w (drainAll w s).2 broken) :
    (writeUncached w s i lba data).1 = .accepted ∧ Calm (writeUncached w s i lba data).2 broken ∧
      Parked w (writeUncached w s i lba data).2 broken := by
  have granted := (reliable (drainAll w s).2.asked i ne).1
  have spares := (Goes.spares reliable _ (Goes.driverWrite (drainAll w s).2 i lba data)).trans
    (@spares_of_update S broken i _ (markUnflushed
      (driverWrite w (drainAll w s).2 i lba data).2 i true) _ rfl fun _ => rfl)
  obtain ⟨queue, _, others, _⟩ := driverWrite_cases w (drainAll w s).2 i lba data
  have wrote : (driverWrite w (drainAll w s).2 i lba data).1 = true := by
    unfold driverWrite
    rw [if_pos granted]
  have shape : writeUncached w s i lba data = (.accepted, markUnflushed
      (driverWrite w (drainAll w s).2 i lba data).2 i true) := by
    unfold writeUncached writeThrough
    rw [if_neg (by simp [success]), if_pos wrote]
    rfl
  rw [shape]
  refine ⟨rfl, calm.spared spares ?_, ?_⟩
  · rw [markUnflushed, setDevice_queue, queue, empty]
    exact forall_mem_nil _
  · unfold Parked at parked ⊢
    rw [markUnflushed, setDevice_devices, if_neg ne.symm, others broken ne.symm]
    exact parked

theorem writeCachedEnd_progress {lba : Nat} {data : List S} (calm : Calm s broken)
    (parked : Parked w s broken) (ins : i < s.deviceCount)
    (isDeferred : (s.devices i).deferredWrites = true) (writable : (s.devices i).writable = true)
    (inRange : requestInRange (s.devices i) lba data.length = true) :
    (writeCachedEnd w s i lba data).1 = .accepted ∧ Calm (writeCachedEnd w s i lba data).2 broken ∧
      Parked w (writeCachedEnd w s i lba data).2 broken := by
  have present : (s.devices i).present = true := by
    unfold requestInRange at inRange
    simp only [Bool.and_eq_true] at inRange
    exact inRange.1.1
  have found := deviceForIndex_eq ins present
  have healthy : (s.devices i).failed ≠ true := fun failed => ne (calm.only i failed)
  obtain ⟨roomy, calmRoom, keptRoom⟩ := @makeRoomLoop_progress S w broken reliable
    (data.length * sectorSize) _ s calm (Nat.lt_succ_self s.work)
  have parkedRoom : Parked w (makeRoom w s (data.length * sectorSize)).2.answered broken := by
    unfold Parked at parked ⊢
    rw [show (makeRoom w s (data.length * sectorSize)).2.answered.devices broken = _ from keptRoom]
    exact parked
  have calmAsked : Calm (makeRoom w s (data.length * sectorSize)).2.answered broken :=
    ⟨calmRoom.only, calmRoom.clear⟩
  unfold writeCachedEnd
  rw [found]
  dsimp only
  rw [if_neg (by rw [writable, inRange]; exact fun either => either.elim nofun nofun),
    if_neg (by rw [isDeferred]; exact nofun), if_neg healthy,
    if_neg (by rw [show (makeRoom w s (data.length * sectorSize)).1 = true
      from roomy]; exact nofun)]
  split
  · obtain ⟨empty, calmDrained, drained⟩ := drainAll_progress reliable calmAsked
    obtain ⟨success, parkedDrained⟩ := drained parkedRoom
    exact writeUncached_progress reliable ne success empty calmDrained parkedDrained
  · refine ⟨rfl, ⟨calmAsked.only, ?_⟩, parkedRoom⟩
    exact forall_mem_append.mpr ⟨calmAsked.clear, forall_mem_cons.mpr ⟨ne, nofun⟩⟩

theorem flush_progress (calm : Calm s broken) (parked : Parked w s broken)
    (ins : i < s.deviceCount) (present : (s.devices i).present = true)
    (isDeferred : (s.devices i).deferredWrites = true) (writable : (s.devices i).writable = true) :
    (flush w s i).1 = true ∧ Calm (flush w s i).2 broken ∧ Parked w (flush w s i).2 broken := by
  have found := deviceForIndex_eq ins present
  have healthy : (s.devices i).failed ≠ true := fun failed => ne (calm.only i failed)
  unfold flush
  rw [found]
  dsimp only
  rw [if_neg (by rw [writable]; exact nofun), if_neg (by rw [isDeferred]; exact nofun),
    if_neg healthy]
  split
  · exact ⟨rfl, calm, parked⟩
  split
  · exact ⟨rfl, calm, parked⟩
  split
  · have calmAsked : Calm s.answered broken := ⟨calm.only, calm.clear⟩
    obtain ⟨_, calmDrained, drained⟩ := drainAll_progress reliable calmAsked
    obtain ⟨success, parkedDrained⟩ := drained parked
    exact ⟨success, calmDrained, parkedDrained⟩
  · refine ⟨rfl, ⟨calm.only, ?_⟩, parked⟩
    exact forall_mem_append.mpr ⟨calm.clear, forall_mem_cons.mpr ⟨ne, nofun⟩⟩

end Calls

end Progress

/-- As long as no record of the broken device is queued, a drain empties the
queue; and if in addition a drain need not flush it in vain, a durable write to
another device succeeds, with everything accepted for it on its medium. -/
theorem failed_disk_contained (world : World) (broken : Nat) (reliable : Reliable world broken)
    (start : State S) (fresh : Fresh start) (calls : List (Call S)) (index : Nat)
    (different : index ≠ broken)
    (inside : index < start.deviceCount) (present : (start.devices index).present = true)
    (isDeferred : (start.devices index).deferredWrites = true)
    (clear : ∀ record ∈ (runCalls world calls (start, openingBooks start)).1.queue,
      record.device ≠ broken) :
    let reached := runCalls world calls (start, openingBooks start)
    (∀ record ∈ (sync world reached.1 index).2.queue, record.device ≠ index) ∧
      (Parked world reached.1 broken → ∀ lba data, (start.devices index).writable = true →
        requestInRange (reached.1.devices index) lba data.length = true →
          (write world reached.1 index lba data).1 = true ∧
          ((write world reached.1 index lba data).2.devices index).medium =
            store (cells lba data) (reached.2.ledger index)) := by
  intro reached
  have agree := @runCalls_matches S world calls start (start, openingBooks start) fresh.matches
  have spares := Goes.spares reliable _ (Goes.runCalls calls (start, openingBooks start))
  have calm : Calm reached.1 broken := by
    refine ⟨fun other failed => ?_, clear⟩
    by_contra elsewhere
    rw [spares other elsewhere, (fresh.devices other).2.1] at failed
    cases failed
  have config := agree.config index
  have isPresent := (congrArg Prod.fst config).trans present
  have stillDeferred := (Device.config_deferred config).trans isDeferred
  have stillInside : index < reached.1.deviceCount := agree.count.symm ▸ inside
  refine ⟨?_, fun parked lba data isWritable inRange => ?_⟩
  · unfold sync
    rw [deviceForIndex_eq stillInside isPresent]
    rw [(drainAll_progress reliable calm).1]
    exact nofun
  have writable := (congrArg (fun config => config.2.2.2.2) config).trans isWritable
  obtain ⟨accepted, calmWritten, parkedWritten⟩ :=
    writeCachedEnd_progress reliable different calm parked
    stillInside stillDeferred writable inRange
  have agreeWritten := @writeCached_matches S world reached.1 start reached.2 agree index lba data
  have configWritten := agreeWritten.config index
  have insideWritten : index < (writeCachedEnd world reached.1 index lba data).2.deviceCount :=
    agreeWritten.count.symm ▸ inside
  obtain ⟨flushed, calmFlushed, parkedFlushed⟩ :=
    flush_progress reliable different calmWritten parkedWritten
    insideWritten ((congrArg Prod.fst configWritten).trans present)
    ((Device.config_deferred configWritten).trans isDeferred)
    ((congrArg (fun config => config.2.2.2.2) configWritten).trans isWritable)
  have agreeFlushed := @Matches.flushed S world _ start _ agreeWritten index
  have configFlushed := agreeFlushed.config index
  obtain ⟨empty, _, drained⟩ := drainAll_progress reliable calmFlushed
  have agreeSynced := agreeFlushed.quiet (drainAll_quiet world agreeFlushed.orderly).1
  have shape : write world reached.1 index lba data =
      drainAll world (flush world (writeCachedEnd world reached.1 index lba data).2 index).2 := by
    unfold write writeCached
    dsimp only
    rw [accepted, if_neg nofun, if_neg (by rw [flushed]; exact nofun), sync, deviceForIndex_eq]
    · exact agreeFlushed.count.symm ▸ inside
    · exact (congrArg Prod.fst configFlushed).trans present
  rw [shape]
  refine ⟨(drained parkedFlushed).1, ?_⟩
  have ledger := agreeSynced.ledger index
  rw [view, empty] at ledger
  refine (Eq.symm ledger).trans ?_
  rw [Books.flushed_ledger, Books.wrote_ledger, if_pos rfl, accepted]
  rfl

/-- Surroundings in which the first flushes of device 0 are refused. -/
def lateFlush : World := fun tick req =>
  match req with
  | .flush 0 => ⟨3 ≤ tick, fun _ => false⟩
  | _ => ⟨true, fun _ => false⟩

theorem lateFlush_reliable : Reliable lateFlush 0 := by
  intro tick i ne
  refine ⟨rfl, ?_⟩
  cases i with
  | zero => exact absurd rfl ne
  | succ i => rfl

/-- A write, a drain whose flush is refused, and one whose flush succeeds. -/
def flushedLate : List (Call Nat) := [.writeCached 0 3 [7], .sync 0, .sync 1]

theorem failed_disk_contained_small :
    ((runCalls lateFlush flushedLate (twoDisks, openingBooks twoDisks)).1.devices 0).failed = true ∧
      (write lateFlush (runCalls lateFlush flushedLate (twoDisks, openingBooks twoDisks)).1 1 0
        [9]).1 = true :=
  ⟨by decide +kernel,
    ((failed_disk_contained lateFlush 0 lateFlush_reliable twoDisks twoDisks_fresh flushedLate 1
      (by decide)
      (by decide) rfl rfl
      (fun record inside => by
        cases inside)).2
      (.inl (by decide +kernel)) 0 [9] rfl (by decide +kernel)).1⟩

theorem brokenWrites_reliable (broken : Nat) : Reliable (brokenWrites broken) broken := by
  intro tick i ne
  exact ⟨decide_eq_true ne, rfl⟩

/-- A failed record at the head of the queue holds up the other disk: its durable
writes fail and its records stay queued. -/
theorem failed_disk_blocks :
    let failing : List (Call Nat) := [.writeCached 0 3 [7], .writebackStep]
    let reached := (runCalls (brokenWrites 0) failing (twoDisks, openingBooks twoDisks)).1
    let behind := (runCalls (brokenWrites 0) (failing ++ [.writeCached 1 0 [9]])
      (twoDisks, openingBooks twoDisks)).1
    Fresh twoDisks ∧ Reliable (brokenWrites 0) 0 ∧ (reached.devices 0).failed = true ∧
      (reached.devices 1).deferredWrites = true ∧ (reached.devices 1).writable = true ∧
      requestInRange (reached.devices 1) 0 1 = true ∧
      (write (brokenWrites 0) reached 1 0 [9]).1 = false ∧
      (behind.devices 0).failed = true ∧
      ¬ ∀ record ∈ (sync (brokenWrites 0) behind 1).2.queue, record.device ≠ 1 := by
  refine ⟨twoDisks_fresh, brokenWrites_reliable 0, ?_, ?_, ?_, ?_, ?_, ?_, ?_⟩
  all_goals decide +kernel

end SavanXP.Block
