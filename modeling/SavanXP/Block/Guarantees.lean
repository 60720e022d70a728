import SavanXP.Block.Calls

/-!
# What the block layer promises

Reads agree with a plain array of sectors, devices get the accepted writes in
order and a flush at every ordering point, and a failed device holds up the
others only as long as one of its records is at the head of the queue.
-/

namespace SavanXP.Block

open SavanXP.Library List Function

variable {S : Type}

/-! ## Reads see every accepted write -/

/-- Whatever fails along the way, a read that succeeds returns the sectors as
the accepted writes left them. -/
theorem read_agrees (world : World) (start : State S) (fresh : Fresh start) (calls : List (Call S))
    (index lba count : Nat) (buffer : List S)
    (success : (read world (runCalls world calls (start, openingBooks start)).1 index lba count).1 =
      some buffer) :
    buffer = (List.range count).map fun offset =>
      (runCalls world calls (start, openingBooks start)).2.ledger index (lba + offset) := by
  have agree := @runCalls_matches S world calls start (start, openingBooks start) fresh.matches
  rw [agree.ledger index]
  exact read_view agree.orderly success

/-! ## One or two disks -/

/-- A disk of eight sectors with deferred writes, all zero. -/
def smallDisk : Device Nat where
  present := true
  deferredWrites := true
  hasFlush := true
  sectorCount := 8
  writable := true
  unflushed := false
  failed := false
  medium := fun _ => 0
  received := []

def absentDisk : Device Nat := { smallDisk with present := false, deferredWrites := false }

/-- Two disks that were just registered. -/
def twoDisks : State Nat where
  devices := fun i => if i < 2 then smallDisk else absentDisk
  deviceCount := 2
  queue := []
  queuedBytes := 0
  clockMs := 0
  lastForcedMs := 0
  asked := 0

theorem twoDisks_fresh : Fresh twoDisks := by
  refine ⟨rfl, fun i => ?_⟩
  have either : twoDisks.devices i = smallDisk ∨ twoDisks.devices i = absentDisk :=
    ite_eq_or_eq (i < 2) smallDisk absentDisk
  rcases either with small | absent
  · rw [small]
    exact ⟨rfl, rfl, rfl⟩
  · rw [absent]
    exact ⟨rfl, rfl, rfl⟩

/-- Surroundings that grant everything except the writes of one device. -/
def brokenWrites (broken : Nat) : World := fun _ req =>
  match req with
  | .write dev => ⟨dev ≠ broken, fun _ => false⟩
  | _ => ⟨true, fun _ => false⟩

theorem read_agrees_broken :
    [0, 7] = (List.range 2).map fun offset =>
      (runCalls (brokenWrites 0) [.writeCached 0 3 [7], .writebackStep]
        (twoDisks, openingBooks twoDisks)).2.ledger 0 (2 + offset) :=
  read_agrees (brokenWrites 0) twoDisks twoDisks_fresh
    [.writeCached 0 3 [7], .writebackStep] 0 2 2 [0, 7]
    (by decide +kernel)

/-- The sectors of the devices after a call, if only calls that return true
count. -/
def acknowledge (w : World) (s : State S) (ledger : Nat → Nat → S) : Call S → Nat → Nat → S
  | .writeCached i lba data =>
    if (writeCached w s i lba data).1 then
      update ledger i (store (cells lba data) (ledger i))
    else ledger
  | .write i lba data =>
    if (write w s i lba data).1 then
      update ledger i (store (cells lba data) (ledger i))
    else ledger
  | _ => ledger

def acknowledged (w : World) : List (Call S) → State S → (Nat → Nat → S) → Nat → Nat → S
  | [], _, ledger => ledger
  | call :: rest, s, ledger =>
    acknowledged w rest (perform w s call) (acknowledge w s ledger call)

/-- A durable write that fails leaves its data in the queue, where reads find it. -/
theorem write_refused_visible : ∃ (world : World) (start : State Nat) (calls : List (Call Nat)),
    Fresh start ∧
    (write world start 0 3 [7]).1 = false ∧ calls = [.write 0 3 [7]] ∧
    ∃ buffer, (read world (runCalls world calls (start, openingBooks start)).1 0 3 1).1 =
      some buffer ∧
      buffer ≠ [acknowledged world calls start (openingBooks start).ledger 0 3] := by
  refine ⟨brokenWrites 0, twoDisks, [.write 0 3 [7]], twoDisks_fresh, by decide +kernel, rfl,
    [7], ?_, ?_⟩
  · decide +kernel
  · decide +kernel

/-! ## Writes reach a device in order -/

/-- A flush with as many writes before it as some write lies before that write. -/
theorem flush_between {early late first rest : List (Command S)} {lba : Nat} {v : S}
    (same : early ++ .write lba v :: late = first ++ .flush :: rest)
    (length : (sectors early).length = (sectors first).length) :
    ∃ middle, early = first ++ .flush :: middle ∧ sectors middle = [] := by
  rcases append_eq_append_iff.mp same with ⟨more, isFirst, isLate⟩ | ⟨more, isEarly, isRest⟩
  · cases more with
    | nil => cases (List.cons.inj isLate).1
    | cons command more =>
      obtain ⟨rfl, _⟩ := List.cons.inj isLate
      rw [isFirst, sectors_append, length_append] at length
      simp only [sectors, filterMap_cons, Command.cell, length_cons] at length
      omega
  · cases more with
    | nil => cases (List.cons.inj isRest).1
    | cons command more =>
      obtain ⟨rfl, _⟩ := List.cons.inj isRest
      refine ⟨more, isEarly, ?_⟩
      rw [isEarly, sectors_append, length_append] at length
      exact length_eq_zero_iff.mp (Nat.add_left_cancel (length.trans (Nat.add_zero _).symm))

/-- A device gets the accepted writes in the order they were issued, each once,
and with a flush between the writes before an ordering point and those after
it; what it has not got yet is in the queue. -/
theorem writeback_ordered (world : World) (start : State S) (fresh : Fresh start)
    (calls : List (Call S))
    (index : Nat) (isDeferred : (start.devices index).deferredWrites = true) :
    let reached := runCalls world calls (start, openingBooks start)
    let received := (reached.1.devices index).received
    let issued := reached.2.issued index
    sectors received <+: sectors issued ∧
      sectors issued = sectors received ++ sectors (queuedCommands index reached.1.queue) ∧
      ((start.devices index).hasFlush = true → ∀ before after, issued = before ++ .flush :: after →
        sectors before ≠ [] → ∀ early lba value late, received = early ++ .write lba value :: late →
          (sectors early).length = (sectors before).length →
            ∃ first rest, early = first ++ .flush :: rest ∧ sectors rest = []) := by
  intro reached received issued
  have agree := @runCalls_matches S world calls start (start, openingBooks start) fresh.matches
  have config := agree.config index
  obtain ⟨orders, same⟩ := agree.issued index ((Device.config_deferred config).trans isDeferred)
  have whole : sectors issued = sectors received ++
    sectors (queuedCommands index reached.1.queue) := by
    rw [← sectors_append]
    exact same.symm
  refine ⟨⟨_, whole.symm⟩, whole, ?_⟩
  intro hasFlush before after isIssued written early lba value late isReceived length
  have point : (sectors before).length ∈ points 0 issued := by
    rw [isIssued]
    exact mem_points.mpr ⟨before, after, rfl, (Nat.zero_add _).symm⟩
  have ordered := (orders ((Device.config_hasFlush config).trans hasFlush)).2 _ point
    (length_pos_of_ne_nil written)
  obtain ⟨first, rest, split, place⟩ := mem_points.mp ordered
  have flow_eq : flow reached.1 index = early ++ .write lba value :: (late ++
      queuedCommands index reached.1.queue) := by
    rw [flow, show (reached.1.devices index).received = _ from isReceived, append_assoc,
      cons_append]
  obtain ⟨middle, isEarly, none⟩ := flush_between (flow_eq.symm.trans split) (by omega)
  exact ⟨first, middle, isEarly, none⟩

/-- Two writes with an ordering point between them. -/
def orderedCalls : List (Call Nat) :=
  [.writeCached 0 3 [7], .flush 0, .writeCached 0 4 [8], .sync 0]

theorem writeback_ordered_small :
    sectors ((runCalls (brokenWrites 1) orderedCalls
      (twoDisks, openingBooks twoDisks)).1.devices 0).received <+:
      sectors ((runCalls (brokenWrites 1) orderedCalls
        (twoDisks, openingBooks twoDisks)).2.issued 0) ∧
    ((runCalls (brokenWrites 1) orderedCalls
      (twoDisks, openingBooks twoDisks)).1.devices 0).received =
      [.write 3 7, .flush, .write 4 8, .flush] :=
  ⟨(writeback_ordered (brokenWrites 1) twoDisks twoDisks_fresh orderedCalls 0 rfl).1,
    by decide +kernel⟩

end SavanXP.Block
