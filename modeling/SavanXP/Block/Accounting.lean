import SavanXP.Block.Moves

/-!
# The bytes in the queue

The counter of queued bytes is adjusted when a record is added, when a part of
the head has been written and when records are taken.  It always is what is left
to write, and it stays within its budget unless one write alone exceeds it.
-/

namespace SavanXP.Block

open SavanXP.Library List

variable {S : Type} {w : World} {s t : State S}

/-- What is still to be written of a record, in bytes. -/
def Pending.left (r : Pending S) : Nat := (r.data.length - r.written) * sectorSize

structure Accounted (s : State S) : Prop where
  bytes : s.queuedBytes = (s.queue.map Pending.left).sum
  within : ∀ r ∈ s.queue, r.written ≤ r.data.length
  budget : s.queuedBytes ≤ maxQueuedBytes ∨ ∃ r points, s.queue = r :: points ∧
    maxQueuedBytes < r.data.length * sectorSize ∧ ∀ point ∈ points, point.data = []

namespace Accounted

theorem same (accounted : Accounted s) (queue : t.queue = s.queue)
    (bytes : t.queuedBytes = s.queuedBytes) : Accounted t := by
  obtain ⟨sum, within, budget⟩ := accounted
  rw [← queue, ← bytes] at sum budget
  exact ⟨sum, queue ▸ within, budget⟩

theorem popHead (accounted : Accounted s) : Accounted (popHead s) := by
  obtain ⟨sum, within, budget⟩ := accounted
  unfold Block.popHead
  split
  · exact ⟨sum, within, budget⟩
  next r rest queue =>
  rw [queue, map_cons, sum_cons] at sum
  have left : s.queuedBytes - (r.data.length - r.written) * sectorSize =
    (rest.map Pending.left).sum := by
    rw [sum]
    exact Nat.add_sub_cancel_left _ _
  refine ⟨left, fun o listed => within o (queue ▸ mem_cons_of_mem _ listed), .inl ?_⟩
  rcases budget with small | ⟨_, points, parts, _, empty⟩
  · exact (Nat.sub_le _ _).trans small
  · obtain ⟨rfl, rfl⟩ := cons.inj (queue.symm.trans parts)
    have none : (rest.map Pending.left).sum = 0 := by
      refine List.sum_eq_zero_iff_forall_eq_nat.mpr fun n listed => ?_
      obtain ⟨point, mem, rfl⟩ := mem_map.mp listed
      rw [Pending.left, empty point mem, length_nil, Nat.zero_sub, Nat.zero_mul]
    exact (left.trans none).trans_le (Nat.zero_le _)

theorem popMany (accounted : Accounted s) (n : Nat) (queue : t.queue = s.queue)
    (bytes : t.queuedBytes = s.queuedBytes) : Accounted (popMany n t) := by
  induction n generalizing s t with
  | zero => exact accounted.same queue bytes
  | succ n ih => exact ih (accounted.same queue bytes).popHead rfl rfl

/-- A part of the head has been written. -/
theorem shortened (accounted : Accounted s) {r : Pending S} {rest : List (Pending S)} {n : Nat}
    (queue : s.queue = r :: rest) (short : n ≤ r.data.length - r.written)
    (later : t.queue = { r with written := r.written + n } :: rest)
    (bytes : t.queuedBytes = s.queuedBytes - n * sectorSize) : Accounted t := by
  obtain ⟨sum, within, budget⟩ := accounted
  rw [queue] at within
  obtain ⟨head, others⟩ := forall_mem_cons.mp within
  refine ⟨?_, ?_, ?_⟩
  · rw [queue, map_cons, sum_cons, Pending.left] at sum
    rw [bytes, later, sum, map_cons, sum_cons, Pending.left]
    dsimp only
    rw [← Nat.sub_sub, Nat.sub_mul _ n, Nat.sub_add_comm (Nat.mul_le_mul_right _ short)]
  · rw [later]
    refine forall_mem_cons.mpr ⟨?_, others⟩
    dsimp only
    omega
  · rcases budget with small | ⟨_, points, parts, large, empty⟩
    · exact .inl (bytes.trans_le ((Nat.sub_le _ _).trans small))
    · obtain ⟨rfl, rfl⟩ := cons.inj (queue.symm.trans parts)
      exact .inr ⟨_, _, later, large, empty⟩

theorem step (accounted : Accounted s) : Accounted (step w s).2 := by
  unfold Block.step
  split
  · exact accounted
  next r rest queue =>
  split
  · exact accounted
  split
  · unfold stepOrder driverFlush
    split
    · split
      · rw [if_neg nofun]
        exact accounted.popMany 1 rfl rfl
      · exact accounted.same rfl rfl
    · exact accounted.popMany 1 rfl rfl
  · unfold stepWrite
    dsimp only
    generalize (if r.data.length - r.written < stepSectors then _ else _) = count
    generalize (if count = r.data.length - r.written then _ else _) = merged
    generalize (r.data.drop r.written).take count ++ _ = source
    unfold driverWrite
    dsimp only
    split
    · rw [if_neg nofun]
      split
      · next short => exact accounted.shortened queue (Nat.le_of_lt short) rfl rfl
      · exact accounted.popMany _ rfl rfl
    · exact accounted.same rfl rfl

theorem add (accounted : Accounted s) {r : Pending S} (queue : t.queue = s.queue ++ [r])
    (untouched : r.written = 0) (bytes : t.queuedBytes = s.queuedBytes + r.data.length * sectorSize)
    (room : r.data = [] ∨ s.queue = [] ∨ t.queuedBytes ≤ maxQueuedBytes) : Accounted t := by
  obtain ⟨sum, within, budget⟩ := accounted
  refine ⟨?_, ?_, ?_⟩
  · rw [bytes, queue, sum, map_append, sum_append, map_singleton, sum_singleton, Pending.left,
      untouched,
      Nat.sub_zero]
  · rw [queue]
    refine forall_mem_append.mpr ⟨within, forall_mem_singleton.mpr ?_⟩
    rw [untouched]
    exact Nat.zero_le _
  rcases room with point | empty | small
  · rw [point, length_nil, Nat.zero_mul, Nat.add_zero] at bytes
    rw [bytes, queue]
    refine budget.imp_right fun ⟨head, points, parts, large, empty⟩ => ?_
    refine ⟨head, points ++ [r], by rw [parts, cons_append], large, ?_⟩
    exact forall_mem_append.mpr ⟨empty, forall_mem_singleton.mpr point⟩
  · rw [empty] at sum queue
    rw [sum, map_nil, sum_nil, Nat.zero_add] at bytes
    by_cases small : t.queuedBytes ≤ maxQueuedBytes
    · exact .inl small
    · exact .inr ⟨r, [], queue, bytes ▸ Nat.lt_of_not_le small, nofun⟩
  · exact .inl small

theorem moves {p q : State S × Links} (moves : Moves w p q) (accounted : Accounted p.1) :
    Accounted q.1 := by
  induction moves with
  | refl => exact accounted
  | tail _ move ih =>
    cases move with
    | touch queue bytes => exact ih.same queue bytes
    | step => exact ih.step
    | add queue untouched bytes room => exact ih.add queue untouched bytes room

end Accounted

/-- On every reachable state the counter is what is left to write, only the head is written in
part, and the pointers describe one list of as many records as there are. -/
theorem queue_accounted (world : World) (start : State S) (fresh : Fresh start)
    (none : start.queuedBytes = 0) (calls : List (Call S)) :
    let reached := (runCalls world calls (start, openingBooks start)).1
    Accounted reached ∧ (∀ record ∈ reached.queue.tail, record.written = 0) ∧
      (∃ links, Moves world (start, ⟨Option.none, Option.none, fun _ => Option.none⟩)
        (reached, links)) ∧
      ∀ links, Moves world (start, ⟨Option.none, Option.none, fun _ => Option.none⟩)
        (reached, links) →
        ∃ records, links.Describes records ∧ records.length = reached.queue.length := by
  intro reached
  have agree := @runCalls_matches S world calls start (start, openingBooks start) fresh.matches
  have linked : Linked (start, (⟨Option.none, Option.none, fun _ => Option.none⟩ : Links)) :=
    ⟨[], ⟨rfl, rfl, trivial, nodup_nil⟩, (congrArg length fresh.queue).symm⟩
  have opening : Accounted start := by
    refine ⟨?_, ?_, .inl (none ▸ Nat.zero_le _)⟩
    · rw [none, fresh.queue]
      rfl
    · rw [fresh.queue]
      exact nofun
  obtain ⟨links, moves⟩ := Goes.runCalls calls (start, openingBooks start) _ linked
  exact ⟨Accounted.moves moves opening, agree.orderly.untouched, ⟨links, moves⟩,
    fun links moves => moves.linked linked⟩

theorem queue_accounted_small :
    Accounted (runCalls (brokenWrites 0) [.writeCached 0 3 [7], .flush 0, .writebackStep]
      (twoDisks, openingBooks twoDisks)).1 :=
  (queue_accounted (brokenWrites 0) twoDisks twoDisks_fresh rfl
    [.writeCached 0 3 [7], .flush 0, .writebackStep]).1

end SavanXP.Block
