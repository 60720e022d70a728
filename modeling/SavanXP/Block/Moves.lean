import SavanXP.Block.Guarantees

/-!
# The moves of the queue

Whatever the block layer is called for, it moves its queue in three ways: a step
takes from its head, a record is added at its end, and everything else leaves it
alone.  The records are linked through pointers; a move says what it does to them.
-/

namespace SavanXP.Block

open SavanXP.Library List Function Relation

variable {S : Type}

/-! ## The pointers -/

structure Links where
  head : Option Nat
  tail : Option Nat
  next : Nat → Option Nat

namespace Links

def enqueue (links : Links) (record : Nat) : Links :=
  let next := update links.next record none
  match links.tail with
  | some last => { links with next := update next last (some record), tail := some record }
  | none => { head := some record, tail := some record, next := next }

def popHead (links : Links) : Links :=
  match links.head with
  | none => links
  | some record =>
    let head := links.next record
    { links with head := head, tail := if head = none then none else links.tail }

/-- Every record points at the one behind it. -/
def Chained (next : Nat → Option Nat) : List Nat → Prop
  | [] => True
  | record :: rest => next record = rest.head? ∧ Chained next rest

/-- The pointers describe one list of distinct records. -/
structure Describes (links : Links) (recs : List Nat) : Prop where
  head : links.head = recs.head?
  tail : links.tail = recs.getLast?
  chained : Chained links.next recs
  distinct : recs.Nodup

variable {links : Links} {recs : List Nat} {next : Nat → Option Nat}

theorem Chained.unique {others : List Nat} (one : Chained next recs) (two : Chained next others)
    (same : recs.head? = others.head?) : recs = others := by
  induction recs generalizing others with
  | nil => exact (head?_eq_none_iff.mp same.symm).symm
  | cons record rest ih =>
    obtain ⟨rest', rfl⟩ := head?_eq_some_iff.mp same.symm
    rw [ih one.2 two.2 (one.1.symm.trans two.1)]

theorem Chained.append {last record : Nat} (chained : Chained next recs)
    (distinct : (recs ++ [record]).Nodup) (ends : recs.getLast? = some last) :
    Chained (update (update next record none) last (some record)) (recs ++ [record]) := by
  induction recs with
  | nil => cases ends
  | cons first rest ih =>
    obtain ⟨absent, others⟩ := nodup_cons.mp distinct
    rw [cons_append]
    cases rest with
    | nil =>
      obtain rfl : first = last := Option.some.inj ends
      have o : record ≠ first := fun same => absent (same ▸ mem_append_right _ mem_cons_self)
      refine ⟨update_self .., ?_, trivial⟩
      rw [update_of_ne o, update_self]
      rfl
    | cons second rest =>
      rw [getLast?_cons_cons] at ends
      refine ⟨?_, ih chained.2 others ends⟩
      have notLast : first ≠ last := fun same =>
        absent (mem_append_left _ (same ▸ mem_of_getLast? ends))
      have notRecord : first ≠ record := fun same =>
        absent (same ▸ mem_append_right _ mem_cons_self)
      rw [update_of_ne notLast, update_of_ne notRecord, chained.1]
      rfl

theorem Describes.enqueue (describes : links.Describes recs) {record : Nat}
    (absent : record ∉ recs) : (links.enqueue record).Describes (recs ++ [record]) := by
  have distinct : (recs ++ [record]).Nodup :=
    describes.distinct.append (nodup_singleton _) (disjoint_singleton.mpr absent)
  unfold Links.enqueue
  cases ends : recs.getLast? with
  | none =>
    rw [getLast?_eq_none_iff] at ends
    subst ends
    rw [describes.tail]
    exact ⟨rfl, rfl, ⟨update_self .., trivial⟩, distinct⟩
  | some last =>
    rw [describes.tail, ends]
    refine ⟨?_, by simp, describes.chained.append distinct ends, distinct⟩
    obtain ⟨front, rfl⟩ := getLast?_eq_some_iff.mp ends
    rw [describes.head]
    cases front <;> rfl

theorem Describes.popHead (describes : links.Describes recs) :
    links.popHead.Describes recs.tail := by
  unfold Links.popHead
  cases recs with
  | nil =>
    rw [describes.head]
    exact describes
  | cons record rest =>
    rw [describes.head]
    refine ⟨describes.chained.1, ?_, describes.chained.2, describes.distinct.of_cons⟩
    dsimp only [head?_cons]
    rw [describes.chained.1, describes.tail]
    cases rest with
    | nil => rfl
    | cons second rest => rw [if_neg nofun, getLast?_cons_cons, tail_cons]

theorem Describes.popMany (describes : links.Describes recs) (n : Nat) :
    (Links.popHead^[n] links).Describes (recs.drop n) := by
  induction n with
  | zero => exact describes
  | succ n ih =>
    rw [iterate_succ_apply', ← tail_drop]
    exact ih.popHead

theorem exists_absent (recs : List Nat) : ∃ record, record ∉ recs := by
  obtain ⟨record, absent⟩ := Infinite.exists_notMem_finset recs.toFinset
  exact ⟨record, fun mem => absent (mem_toFinset.mpr mem)⟩

end Links

/-! ## Moves -/

/-- A device that is marked as failed refused a flush, unless a step marked it. -/
inductive Move (w : World) : State S × Links → State S × Links → Prop where
  | touch {s t : State S} {links : Links} (queue : t.queue = s.queue)
      (bytes : t.queuedBytes = s.queuedBytes)
      (failed : ∀ i, (t.devices i).failed = (s.devices i).failed ∨
        ∃ tick, (w tick (.flush i)).granted = false) : Move w (s, links) (t, links)
  | step (s : State S) (links : Links) : Move w (s, links) ((step w s).2,
      Links.popHead^[s.queue.length - (step w s).2.queue.length] links)
  | add {s t : State S} {links : Links} {r : Pending S} (queue : t.queue = s.queue ++ [r])
      (untouched : r.written = 0) (bytes : t.queuedBytes =
        s.queuedBytes + r.data.length * sectorSize)
      (room : r.data = [] ∨ s.queue = [] ∨ t.queuedBytes ≤ maxQueuedBytes)
      (devices : t.devices = s.devices) {record : Nat}
      (absent : ∀ recs, links.Describes recs → record ∉ recs) :
      Move w (s, links) (t, links.enqueue record)

abbrev Moves (w : World) : State S × Links → State S × Links → Prop := ReflTransGen (Move w)

/-- The pointers describe as many records as are queued. -/
def Linked (p : State S × Links) : Prop :=
  ∃ recs, p.2.Describes recs ∧ recs.length = p.1.queue.length

variable {w : World} {s t u : State S}

theorem exists_linked (s : State S) : ∃ links, Linked (s, links) := by
  have some (n : Nat) : ∃ (links : Links) (recs : List Nat), links.Describes recs ∧
      recs.length = n := by
    induction n with
    | zero => exact ⟨⟨none, none, fun _ => none⟩, [], ⟨rfl, rfl, trivial, nodup_nil⟩, rfl⟩
    | succ n ih =>
      obtain ⟨links, recs, describes, rfl⟩ := ih
      obtain ⟨record, absent⟩ := Links.exists_absent recs
      exact ⟨_, _, describes.enqueue absent, length_append⟩
  exact some s.queue.length

theorem step_shorter (w : World) (s : State S) : (step w s).2.queue.length ≤ s.queue.length := by
  unfold step
  split
  · exact le_rfl
  next r rest queue =>
  split
  · exact le_rfl
  split
  · obtain ⟨_, _, _, ⟨_, same, _⟩ | ⟨_, popped, _⟩⟩ := stepOrder_cases w s r.device
    · exact Nat.le_of_eq (congrArg length same)
    · rw [popped, length_tail]
      exact Nat.sub_le _ _
  · obtain ⟨_, _, merged, tail, portion, _, _, ⟨_, same, _⟩ | ⟨_, _, ⟨popped, _⟩ | ⟨shrunk, _⟩⟩⟩ :=
      stepWrite_cases w s r rest queue
    · exact Nat.le_of_eq (congrArg length same)
    · rw [popped, queue, portion.parts, length_cons, length_append]
      omega
    · rw [shrunk, queue]
      exact le_rfl

theorem Move.linked {p q : State S × Links} (move : Move w p q) (linked : Linked p) : Linked q := by
  obtain ⟨recs, describes, same⟩ := linked
  cases move with
  | touch queue => exact ⟨recs, describes, same.trans (congrArg List.length queue).symm⟩
  | step s =>
    refine ⟨_, describes.popMany _, ?_⟩
    rw [length_drop, same]
    exact Nat.sub_sub_self (step_shorter w s)
  | add queue _ _ _ _ absent =>
    refine ⟨_, describes.enqueue (absent recs describes), ?_⟩
    rw [length_append, same, queue, length_append]
    rfl

theorem Moves.linked {p q : State S × Links} (moves : Moves w p q)
    (linked : Linked p) : Linked q := by
  induction moves with
  | refl => exact linked
  | tail _ move ih => exact move.linked ih

/-- The queue moves from one state to another, whichever pointers the records have. -/
def Goes (w : World) (s t : State S) : Prop :=
  ∀ links, Linked (s, links) → ∃ links', Moves w (s, links) (t, links')

namespace Goes

theorem refl : Goes w s s := fun links _ => ⟨links, .refl⟩

theorem trans (one : Goes w s t) (two : Goes w t u) : Goes w s u := by
  intro links linked
  obtain ⟨links', moves⟩ := one links linked
  obtain ⟨last, later⟩ := two links' (moves.linked linked)
  exact ⟨last, moves.trans later⟩

theorem step (s : State S) : Goes w s (step w s).2 := fun links _ => ⟨_, .single (.step s links)⟩

theorem touch (queue : t.queue = s.queue) (bytes : t.queuedBytes = s.queuedBytes)
    (failed : ∀ i, (t.devices i).failed = (s.devices i).failed) : Goes w s t :=
  fun _ _ => ⟨_, .single (.touch queue bytes fun i => .inl (failed i))⟩

/-- A change of one device that does not touch its mark. -/
theorem device (i : Nat) {d : Device S} (queue : t.queue = s.queue)
    (bytes : t.queuedBytes = s.queuedBytes) (devices : t.devices = update s.devices i d)
    (kept : d.failed = (s.devices i).failed) : Goes w s t := by
  refine touch queue bytes fun o => ?_
  rw [devices]
  by_cases here : o = i
  · rw [here, update_self, kept]
  · rw [update_of_ne here]

theorem add {r : Pending S} (queue : t.queue = s.queue ++ [r]) (untouched : r.written = 0)
    (bytes : t.queuedBytes = s.queuedBytes + r.data.length * sectorSize)
    (room : r.data = [] ∨ s.queue = [] ∨ t.queuedBytes ≤ maxQueuedBytes)
    (devices : t.devices = s.devices) : Goes w s t := by
  intro links linked
  obtain ⟨recs, describes, _⟩ := linked
  obtain ⟨record, absent⟩ := Links.exists_absent recs
  refine ⟨links.enqueue record, .single (.add queue untouched bytes room devices ?_)⟩
  intro others same
  rw [← describes.chained.unique same.chained (describes.head.symm.trans same.head)]
  exact absent

theorem makeRoomLoop (bytes rounds : Nat) (s : State S) :
    Goes w s (makeRoomLoop w bytes rounds s).2 := by
  induction rounds generalizing s with
  | zero => exact refl
  | succ rounds ih =>
    unfold Block.makeRoomLoop
    split
    · dsimp only
      split
      · exact step s
      · exact (step s).trans (ih _)
    · exact refl

theorem drainQueue (rounds : Nat) (s : State S) : Goes w s (drainQueue w rounds s).2 := by
  rw [drainQueue_eq]
  exact makeRoomLoop _ rounds s

theorem driverFlush (s : State S) (i : Nat) : Goes w s (driverFlush w s i).2 := by
  unfold Block.driverFlush
  split
  · exact device i rfl rfl rfl rfl
  · exact touch rfl rfl fun _ => rfl

theorem drainDevice (drained : Bool × State S) (i : Nat) :
    Goes w drained.2 (drainDevice w drained i).2 := by
  unfold Block.drainDevice
  dsimp only
  split
  · exact refl
  split
  · split
    · next refused =>
      have marked : (w drained.2.asked (.flush i)).granted = false := by
        unfold Block.driverFlush at refused
        split at refused
        · cases refused
        · next o => exact Bool.not_eq_true _ |>.mp o
      refine (driverFlush drained.2 i).trans fun links _ =>
        ⟨_, .single (.touch rfl rfl fun o => ?_)⟩
      rw [fail, setDevice_devices]
      split
      · next here => exact .inr ⟨_, here ▸ marked⟩
      · exact .inl rfl
    · exact (driverFlush drained.2 i).trans (device i rfl rfl rfl rfl)
  · exact device i rfl rfl rfl rfl

theorem drainAll (s : State S) : Goes w s (drainAll w s).2 := by
  unfold Block.drainAll
  dsimp only
  split
  · exact drainQueue _ s
  refine trans (drainQueue (s.work + 1) s) ?_
  generalize true = success
  generalize (Block.drainQueue w (s.work + 1) s).2 = drained
  induction List.range drained.deviceCount generalizing success drained with
  | nil => exact refl
  | cons i rest ih => exact (drainDevice (success, drained) i).trans (ih _ _)

theorem driverWrite (s : State S) (i lba : Nat) (data : List S) :
    Goes w s (driverWrite w s i lba data).2 := by
  unfold Block.driverWrite
  dsimp only
  split <;> exact device i rfl rfl rfl rfl

theorem writeThrough (s : State S) (i lba : Nat) (data : List S) :
    Goes w s (writeThrough w s i lba data).2 := by
  unfold Block.writeThrough
  dsimp only
  split <;> exact driverWrite s i lba data


theorem writeCachedEnd (s : State S) (i lba : Nat) (data : List S) :
    Goes w s (writeCachedEnd w s i lba data).2 := by
  have room : Goes w s (makeRoom w s (data.length * sectorSize)).2 := makeRoomLoop _ _ s
  unfold Block.writeCachedEnd
  split
  · exact refl
  split
  · exact refl
  split
  · exact writeThrough s i lba data
  split
  · exact refl
  dsimp only
  split
  · exact room
  have asked : Goes w s (makeRoom w s (data.length * sectorSize)).2.answered :=
    room.trans (touch rfl rfl fun _ => rfl)
  split
  · have drained := asked.trans (drainAll _)
    unfold writeUncached
    dsimp only
    split
    · exact drained
    have wrote := drained.trans (writeThrough _ i lba data)
    split
    · exact wrote.trans (device i rfl rfl rfl rfl)
    · exact wrote
  · next success _ =>
    refine asked.trans (add rfl rfl rfl ?_ rfl)
    rcases makeRoom_room w (Bool.not_eq_false _ |>.mp success) with empty | fits
    · exact .inr (.inl empty)
    · exact .inr (.inr fits)

theorem flush (s : State S) (i : Nat) : Goes w s (flush w s i).2 := by
  unfold Block.flush
  split
  · exact refl
  split
  · exact refl
  split
  · split
    · exact driverFlush s i
    · exact refl
  split
  · exact refl
  split
  · exact refl
  split
  · exact refl
  have asked : Goes w s s.answered := touch rfl rfl fun _ => rfl
  split
  · exact asked.trans (drainAll _)
  · refine asked.trans (add rfl rfl ?_ (.inl rfl) rfl)
    rw [length_nil, Nat.zero_mul]
    rfl

theorem sync (s : State S) (i : Nat) : Goes w s (sync w s i).2 := by
  unfold Block.sync
  split
  · exact refl
  · exact drainAll s

theorem perform (s : State S) (call : Call S) : Goes w s (perform w s call) := by
  cases call with
  | writeCached i lba data => exact writeCachedEnd s i lba data
  | write i lba data =>
    have wrote : Goes w s (Block.writeCachedEnd w s i lba data).2 := writeCachedEnd s i lba data
    change Goes w s (write w s i lba data).2
    unfold write writeCached
    dsimp only
    split
    · exact wrote
    have flushed := wrote.trans (flush _ i)
    split
    · exact flushed
    · exact flushed.trans (sync _ i)
  | flush i => exact flush s i
  | sync i => exact sync s i
  | writebackStep => exact step s
  | writebackTick nowMs =>
    have ticked (last : UInt64) : Goes w s { s with clockMs := nowMs, lastForcedMs := last } :=
      touch rfl rfl fun _ => rfl
    change Goes w s (writebackTick w s nowMs)
    unfold writebackTick
    dsimp only
    split
    · exact ticked _
    · split
      · exact ticked _
      · exact (ticked nowMs).trans (step _)
  | read i lba count =>
    have asked : Goes w s s.answered := touch rfl rfl fun _ => rfl
    change Goes w s (read w s i lba count).2
    unfold read
    split
    · exact refl
    split
    · exact refl
    · split <;> exact asked

theorem runCalls (calls : List (Call S)) (reached : State S × Books S) :
    Goes w reached.1 (runCalls w calls reached).1 := by
  induction calls generalizing reached with
  | nil => exact refl
  | cons call rest ih =>
    exact (perform reached.1 call).trans
      (ih (Block.perform w reached.1 call, account w reached.1 reached.2 call))

end Goes

end SavanXP.Block
