import SavanXP.Block.Writeback

/-!
# What happens in the background

Draining the queue changes neither what a read of a device sees nor what the
device has received and will receive.  The first is the medium with the queued
writes laid over it.  The second is the commands the device carried out
followed by those of the queue; a drain may only leave out an ordering point
that has nothing to order.
-/

namespace SavanXP.Block

open SavanXP.Library List Function

variable {S : Type}

/-! ## Lists of commands -/

def Command.cell : Command S → Option (Nat × S)
  | .write lba v => some (lba, v)
  | .flush => none

/-- The sector writes among some commands. -/
def sectors (commands : List (Command S)) : List (Nat × S) := commands.filterMap Command.cell

/-- For each flush, the number of sector writes before it. -/
def points : Nat → List (Command S) → List Nat
  | _, [] => []
  | count, .write _ _ :: rest => points (count + 1) rest
  | count, .flush :: rest => count :: points count rest

@[simp]
theorem sectors_append (first second : List (Command S)) :
    sectors (first ++ second) = sectors first ++ sectors second :=
  filterMap_append

theorem points_append (count : Nat) (first second : List (Command S)) :
    points count (first ++ second) = points count first ++
      points (count + (sectors first).length) second := by
  induction first generalizing count with
  | nil => rfl
  | cons command rest ih =>
    cases command with
    | write lba v =>
      rw [cons_append, points, points, ih]
      simp only [sectors, filterMap_cons, Command.cell, length_cons]
      congr 2
      omega
    | flush =>
      rw [cons_append, points, points, ih]
      rfl

theorem mem_points {count : Nat} {commands : List (Command S)} {point : Nat} :
    point ∈ points count commands ↔ ∃ old after, commands = old ++ .flush :: after ∧
      point = count + (sectors old).length := by
  constructor
  · intro mem
    induction commands generalizing count with
    | nil => cases mem
    | cons command rest ih =>
      cases command with
      | write lba v =>
        obtain ⟨old, after, rfl, place⟩ := ih mem
        refine ⟨.write lba v :: old, after, rfl, ?_⟩
        simp only [sectors, filterMap_cons, Command.cell, length_cons] at place ⊢
        omega
      | flush =>
        rcases mem_cons.mp mem with here | t
        · exact ⟨[], rest, rfl, here⟩
        · obtain ⟨old, after, rfl, place⟩ := ih t
          exact ⟨.flush :: old, after, rfl, place⟩
  · rintro ⟨old, after, rfl, rfl⟩
    rw [points_append]
    exact mem_append_right _ mem_cons_self

theorem writes_append (lba : Nat) (first second : List S) :
    writes lba (first ++ second) = writes lba first ++ writes (lba + first.length) second := by
  rw [writes, cells_append, map_append]
  rfl

/-! ## What a device shows and what it will receive -/

/-- The sector writes of the queued records of a device. -/
def queuedCells (i : Nat) (queue : List (Pending S)) : List (Nat × S) :=
  queue.flatMap fun r => if r.device = i then cells r.lba r.data else []

/-- What reads of a device see. -/
def view (s : State S) (i : Nat) : Nat → S :=
  store (queuedCells i s.queue) (s.devices i).medium

/-- What is still to be done for a record. -/
def Pending.commands (r : Pending S) : List (Command S) :=
  if r.data.length = 0 then [.flush]
  else writes (r.lba + r.written) (r.data.drop r.written)

def queuedCommands (i : Nat) (queue : List (Pending S)) : List (Command S) :=
  queue.flatMap fun r => if r.device = i then r.commands else []

/-- What a device has received and will receive. -/
def flow (s : State S) (i : Nat) : List (Command S) :=
  (s.devices i).received ++ queuedCommands i s.queue

/-- Nothing was written since the last flush. -/
def Flushed (commands : List (Command S)) : Prop :=
  (sectors commands).length = 0 ∨ (sectors commands).length ∈ points 0 commands

theorem Flushed.end (commands : List (Command S)) : Flushed (commands ++ [.flush]) := by
  right
  rw [points_append, sectors_append]
  exact mem_append_right _ (by simp [points, sectors, Command.cell])

/-- What registering a device fixes. -/
def Device.config (dev : Device S) : Bool × Bool × Bool × Nat × Bool :=
  (dev.present, dev.deferredWrites, dev.hasFlush, dev.sectorCount, dev.writable)

structure Orderly (s : State S) : Prop where
  deferred : ∀ r ∈ s.queue, (s.devices r.device).deferredWrites = true
  untouched : ∀ r ∈ s.queue.tail, r.written = 0
  landed : ∀ r ∈ s.queue, store (cells r.lba (r.data.take r.written))
    (s.devices r.device).medium = (s.devices r.device).medium
  clean : ∀ i, (s.devices i).deferredWrites = true → (s.devices i).hasFlush = true →
    (s.devices i).unflushed = false → Flushed (s.devices i).received

/-- The ordering points of one list of commands are among those of another. -/
def Orders (first second : List (Command S)) : Prop :=
  sectors second = sectors first ∧ ∀ point ∈ points 0 first, 0 < point → point ∈ points 0 second

theorem Orders.refl (commands : List (Command S)) : Orders commands commands :=
  ⟨rfl, fun _ mem _ => mem⟩

theorem Orders.trans {first second third : List (Command S)} (one : Orders first second)
    (two : Orders second third) : Orders first third :=
  ⟨two.1.trans one.1, fun point mem pos => two.2 point (one.2 point mem pos) pos⟩

theorem Orders.append {first second : List (Command S)} (orders : Orders first second)
    (rest : List (Command S)) : Orders (first ++ rest) (second ++ rest) := by
  refine ⟨by rw [sectors_append, sectors_append, orders.1], fun point mem pos => ?_⟩
  rw [points_append] at mem ⊢
  rw [orders.1]
  rcases mem_append.mp mem with early | late
  · exact mem_append_left _ (orders.2 point early pos)
  · exact mem_append_right _ late

theorem Orders.extra_flush (commands : List (Command S)) :
    Orders commands (commands ++ [.flush]) := by
  refine ⟨by simp [sectors, Command.cell], fun point mem _ => ?_⟩
  rw [points_append]
  exact mem_append_left _ mem

/-- An ordering point with nothing to order can be left out. -/
theorem Orders.drop_flush {commands : List (Command S)} (flushed : Flushed commands) :
    Orders (commands ++ [.flush]) commands := by
  refine ⟨by simp [sectors, Command.cell], fun point mem pos => ?_⟩
  rw [points_append] at mem
  rcases mem_append.mp mem with early | late
  · exact early
  rw [mem_singleton.mp late] at pos ⊢
  rcases flushed with none | here
  · omega
  · rw [Nat.zero_add]
    exact here

variable {s : State S}

/-- Work in the background. -/
structure Quiet (s s' : State S) : Prop where
  orderly : Orderly s'
  count : s'.deviceCount = s.deviceCount
  config : ∀ i, (s'.devices i).config = (s.devices i).config
  view : ∀ i, view s' i = view s i
  flow : ∀ i, (s.devices i).deferredWrites = true →
    ((s.devices i).hasFlush = true → Orders (flow s i) (flow s' i)) ∧
      sectors (flow s' i) = sectors (flow s i)

theorem Quiet.refl (orderly : Orderly s) : Quiet s s :=
  ⟨orderly, rfl, fun _ => rfl, fun _ => rfl, fun _ _ => ⟨fun _ => .refl _, rfl⟩⟩

theorem Device.config_deferred {first second : Device S} (same : first.config = second.config) :
    first.deferredWrites = second.deferredWrites :=
  congrArg (fun config => config.2.1) same

theorem Device.config_hasFlush {first second : Device S} (same : first.config = second.config) :
    first.hasFlush = second.hasFlush :=
  congrArg (fun config => config.2.2.1) same

theorem Quiet.trans {first second third : State S} (one : Quiet first second)
    (two : Quiet second third) :
    Quiet first third := by
  refine ⟨two.orderly, two.count.trans one.count, fun i => (two.config i).trans (one.config i),
    fun i => (two.view i).trans (one.view i), fun i deferred => ?_⟩
  have isDeferred := (Device.config_deferred (one.config i)).trans deferred
  obtain ⟨firstOrders, firstSectors⟩ := one.flow i deferred
  obtain ⟨secondOrders, secondSectors⟩ := two.flow i isDeferred
  refine ⟨fun hasFlush => ?_, secondSectors.trans firstSectors⟩
  exact (firstOrders hasFlush).trans
    (secondOrders ((Device.config_hasFlush (one.config i)).trans hasFlush))

/-! ## One device at a time -/

theorem queuedCells_append (i : Nat) (first second : List (Pending S)) :
    queuedCells i (first ++ second) = queuedCells i first ++ queuedCells i second :=
  flatMap_append

theorem queuedCommands_append (i : Nat) (first second : List (Pending S)) :
    queuedCommands i (first ++ second) = queuedCommands i first ++ queuedCommands i second :=
  flatMap_append

variable {recs : List (Pending S)}

theorem queuedCells_other {i dev : Nat} (ne : i ≠ dev)
    (same : ∀ r ∈ recs, r.device = dev) : queuedCells i recs = [] := by
  refine flatMap_eq_nil_iff.mpr fun r ins => if_neg ?_
  rw [same r ins]
  exact ne.symm

theorem queuedCommands_other {i dev : Nat} (ne : i ≠ dev)
    (same : ∀ r ∈ recs, r.device = dev) : queuedCommands i recs = [] := by
  refine flatMap_eq_nil_iff.mpr fun r ins => if_neg ?_
  rw [same r ins]
  exact ne.symm

variable {i : Nat}

/-- Some records of one device are replaced by others of it, and the device may
change. -/
structure Local (s s' : State S) (i : Nat) (dev : Device S)
    (front front' rest : List (Pending S)) : Prop where
  count : s'.deviceCount = s.deviceCount
  devices : s'.devices = update s.devices i dev
  config : dev.config = (s.devices i).config
  queue : s.queue = front ++ rest
  queue' : s'.queue = front' ++ rest
  mine : ∀ r ∈ front, r.device = i
  mine' : ∀ r ∈ front', r.device = i

theorem Local.quiet {s s' : State S} {dev : Device S}
    {front front' rest : List (Pending S)} (here : Local s s' i dev front front' rest)
    (orderly : Orderly s) (deferred : (s.devices i).deferredWrites = true)
    (restUntouched : ∀ r ∈ rest, r.written = 0)
    (untouched : ∀ r ∈ (front' ++ rest).tail, r.written = 0)
    (landed : ∀ r ∈ front', store (cells r.lba (r.data.take r.written)) dev.medium = dev.medium)
    (clean : dev.hasFlush = true → dev.unflushed = false → Flushed dev.received)
    (sameView : store (queuedCells i front') dev.medium =
      store (queuedCells i front) (s.devices i).medium) (orders : dev.hasFlush = true →
      Orders ((s.devices i).received ++ queuedCommands i front)
        (dev.received ++ queuedCommands i front'))
    (sameSectors : sectors (dev.received ++ queuedCommands i front') =
      sectors ((s.devices i).received ++ queuedCommands i front)) : Quiet s s' := by
  have mineNow : s'.devices i = dev := by rw [here.devices, update_self]
  have others : ∀ o ≠ i, s'.devices o = s.devices o := fun o ne => by
    rw [here.devices, update_of_ne ne]
  have configs : ∀ o, (s'.devices o).config = (s.devices o).config := by
    intro o
    by_cases same : o = i
    · rw [same, mineNow]
      exact here.config
    · rw [others o same]
  refine ⟨⟨?_, here.queue' ▸ untouched, ?_, ?_⟩, here.count, configs, ?_, ?_⟩
  · intro r ins
    rw [Device.config_deferred (configs r.device)]
    rw [here.queue'] at ins
    rcases mem_append.mp ins with mine | t
    · rw [here.mine' r mine]
      exact deferred
    · exact orderly.deferred r (here.queue ▸ mem_append_right _ t)
  · intro r ins
    rw [here.queue'] at ins
    rcases mem_append.mp ins with mine | t
    · rw [here.mine' r mine, mineNow]
      exact landed r mine
    · rw [restUntouched r t]
      rfl
  · intro o isDeferred hasFlush unflushed
    by_cases same : o = i
    · rw [same, mineNow] at hasFlush unflushed ⊢
      exact clean hasFlush unflushed
    · rw [others o same] at isDeferred hasFlush unflushed ⊢
      exact orderly.clean o isDeferred hasFlush unflushed
  · intro o
    rw [view, view, here.queue, here.queue', queuedCells_append, queuedCells_append, store_append,
      store_append]
    by_cases same : o = i
    · rw [same, mineNow, sameView]
    · rw [queuedCells_other same here.mine, queuedCells_other same here.mine', others o same]
  · intro o _
    rw [flow, flow, here.queue, here.queue', queuedCommands_append, queuedCommands_append,
      ← append_assoc, ← append_assoc]
    by_cases same : o = i
    · rw [same, mineNow]
      refine ⟨fun hasFlush => (orders ?_).append _, (sectors_append _ _).trans ?_⟩
      · exact (Device.config_hasFlush here.config).trans hasFlush
      · rw [sameSectors]
        exact (sectors_append _ _).symm
    · rw [queuedCommands_other same here.mine, queuedCommands_other same here.mine', others o same]
      exact ⟨fun _ => .refl _, rfl⟩

/-! ## Access -/

section Access

variable (s : State S) (i o : Nat) (change : Device S → Device S)

@[simp]
theorem setDevice_devices : (s.setDevice i change).devices o =
    if o = i then change (s.devices i) else s.devices o := by
  exact update_apply ..

@[simp]
theorem setDevice_queue : (s.setDevice i change).queue = s.queue := rfl

theorem popMany_devices (count : Nat) : (popMany count s).devices = s.devices ∧
    (popMany count s).deviceCount = s.deviceCount := by
  induction count generalizing s with
  | zero => exact ⟨rfl, rfl⟩
  | succ count ih =>
    rw [popMany, (ih _).1, (ih _).2, popHead]
    split <;> exact ⟨rfl, rfl⟩

theorem popHead_queue : (popHead s).queue = s.queue.tail := by
  unfold popHead
  split
  · next none =>
    rw [none]
    rfl
  · next r rest parts => rw [parts]; rfl

theorem popMany_queue (count : Nat) : (popMany count s).queue = s.queue.drop count := by
  induction count generalizing s with
  | zero => rfl
  | succ count ih => rw [popMany, ih, popHead_queue, drop_tail]

end Access

/-! ## Ordering points -/


/-- The ways an ordering point at the head is dealt with. -/
theorem stepOrder_cases (w : World) (s : State S) (i : Nat) :
    let dev := s.devices i
    ∃ device', (stepOrder w s i).2.devices = update s.devices i device' ∧
      (stepOrder w s i).2.deviceCount = s.deviceCount ∧
      ((stepOrder w s i).1 = false ∧ (stepOrder w s i).2.queue = s.queue ∧
          (w s.asked (.flush i)).granted = false ∧ device' = { dev with failed := true } ∨
        (stepOrder w s i).1 = true ∧ (stepOrder w s i).2.queue = s.queue.tail ∧
          ∃ received, device' = { dev with received, unflushed := false } ∧
            (received = dev.received ++ [.flush] ∨
              received = dev.received ∧ (dev.hasFlush = true → dev.unflushed = false))) := by
  intro dev
  unfold stepOrder
  split
  · unfold driverFlush
    split
    · rw [if_neg nofun]
      have kept := popMany_devices (markUnflushed (s.answered.setDevice i fun device =>
        { device with received := device.received ++ [.flush] }) i false) 1
      refine ⟨_, kept.1.trans ?_, kept.2, .inr ⟨rfl, popHead_queue _, _, rfl, .inl rfl⟩⟩
      simp [markUnflushed, State.setDevice, State.answered, dev]
    · next refused =>
      exact ⟨_, rfl, rfl, .inl ⟨rfl, rfl, Bool.not_eq_true _ |>.mp refused, rfl⟩⟩
  · next clean =>
    have kept := popMany_devices (markUnflushed s i false) 1
    refine ⟨_, kept.1, kept.2, .inr ⟨rfl, popHead_queue _, _, rfl, .inr ⟨rfl, fun hasFlush => ?_⟩⟩⟩
    exact Bool.not_eq_true _ |>.mp fun unflushed => clean ⟨unflushed, hasFlush⟩

variable {r : Pending S} {rest : List (Pending S)}

theorem stepOrder_quiet {w : World} (orderly : Orderly s)
    (queue : s.queue = r :: rest) (point : r.data.length = 0) :
    Quiet s (stepOrder w s r.device).2 := by
  have deferred := orderly.deferred r (queue ▸ mem_cons_self)
  have rests : ∀ o ∈ rest, o.written = 0 := by
    have untouched := orderly.untouched
    rw [queue] at untouched
    exact untouched
  have nothing : r.data = [] := length_eq_zero_iff.mp point
  have noCells : queuedCells r.device [r] = [] := by simp [queuedCells, nothing, cells]
  have one : queuedCommands r.device [r] = [.flush] := by
    simp [queuedCommands, Pending.commands, nothing]
  have mine : ∀ o ∈ [r], o.device = r.device := fun o ins => by
    rw [mem_singleton.mp ins]
  have clean := orderly.clean r.device deferred
  have t : ∀ o ∈ rest.tail, o.written = 0 := fun o ins =>
    rests o (mem_of_mem_tail ins)
  obtain ⟨dev, devices, count, kept | ⟨_, popped, done⟩⟩ := stepOrder_cases w s r.device
  · obtain ⟨_, same, _, rfl⟩ := kept
    have here : Local s _ r.device _ [r] [r] rest :=
      ⟨count, devices, rfl, queue, same.trans queue, mine, mine⟩
    refine here.quiet orderly deferred rests rests ?_ clean rfl (fun _ => .refl _) rfl
    intro o ins
    rw [mem_singleton.mp ins, nothing, take_nil]
    rfl
  · obtain ⟨received, rfl, done⟩ := done
    rw [queue] at popped
    have here : Local s _ r.device _ [r] [] rest :=
      ⟨count, devices, rfl, queue, popped, mine, forall_mem_nil _⟩
    have flushed (tidy : (s.devices r.device).hasFlush = true →
        (s.devices r.device).unflushed = false) (hasFlush : (s.devices r.device).hasFlush = true) :
        Flushed (s.devices r.device).received := clean hasFlush (tidy hasFlush)
    refine here.quiet orderly deferred rests t (forall_mem_nil _) (fun hasFlush _ => ?_)
      (by rw [noCells]; rfl) (fun hasFlush => ?_) ?_
    all_goals
      rcases done with rfl | ⟨rfl, tidy⟩
    · exact .end _
    · exact flushed tidy hasFlush
    all_goals
      rw [one, show queuedCommands r.device [] = [] from rfl, append_nil]
    · exact .refl _
    · exact .drop_flush (flushed tidy hasFlush)
    · exact (Orders.extra_flush _).1.symm

/-! ## Writes -/

theorem mergedRecords_spec (dev lba count : Nat) (recs : List (Pending S)) :
    (∃ tail, recs = mergedRecords dev lba count recs ++ tail) ∧
      (∀ r ∈ mergedRecords dev lba count recs, r.device = dev ∧ r.data.length ≠ 0) ∧
      cells (lba + count) ((mergedRecords dev lba count recs).flatMap Pending.data) =
        (mergedRecords dev lba count recs).flatMap fun r => cells r.lba r.data := by
  induction recs generalizing count with
  | nil => exact ⟨⟨[], rfl⟩, nofun, rfl⟩
  | cons next rest ih =>
    rw [mergedRecords]
    split
    · next fits =>
      obtain ⟨nonempty, same, place, _⟩ := fits
      obtain ⟨⟨tail, parts⟩, mine, joined⟩ := ih (count + next.data.length)
      refine ⟨⟨tail, ?_⟩, forall_mem_cons.mpr ⟨⟨same, nonempty⟩, mine⟩, ?_⟩
      · rw [cons_append, ← parts]
      · rw [flatMap_cons, flatMap_cons, cells_append, place, ← joined, Nat.add_assoc lba]
    · exact ⟨⟨next :: rest, rfl⟩, nofun, rfl⟩

/-- What one step writes: some sectors of the head record and the records merged
into it. -/
structure Portion (r : Pending S) (rest : List (Pending S)) (head : List S)
    (merged tail : List (Pending S)) : Prop where
  parts : rest = merged ++ tail
  mine : ∀ o ∈ merged, o.device = r.device ∧ o.data.length ≠ 0
  first : head <+: r.data.drop r.written
  joined : cells (r.lba + r.written) (head ++ merged.flatMap Pending.data) =
    cells (r.lba + r.written) head ++ merged.flatMap fun o => cells o.lba o.data

theorem portion_of_count (r : Pending S) (rest : List (Pending S)) {count : Nat}
    (bounded : count ≤ r.data.length - r.written) :
    ∃ tail, Portion r rest ((r.data.drop r.written).take count)
      (if count = r.data.length - r.written then
        mergedRecords r.device (r.lba + r.written) count rest else []) tail := by
  have length : ((r.data.drop r.written).take count).length = count := by
    rw [length_take, length_drop]
    omega
  split
  · obtain ⟨⟨tail, parts⟩, mine, joined⟩ :=
      mergedRecords_spec r.device (r.lba + r.written) count rest
    refine ⟨tail, parts, mine, take_prefix _ _, ?_⟩
    rw [cells_append, length, joined]
  · refine ⟨rest, rfl, nofun, take_prefix _ _, ?_⟩
    rw [flatMap_nil, append_nil, flatMap_nil, append_nil]

/-- The ways a write at the head is dealt with. -/
theorem stepWrite_cases (w : World) (s : State S) (r : Pending S) (rest : List (Pending S))
    (queue : s.queue = r :: rest) :
    let dev := s.devices r.device
    let start := r.lba + r.written
    ∃ device' head merged tail, Portion r rest head merged tail ∧
      (stepWrite w s r rest).2.devices = update s.devices r.device device' ∧
      (stepWrite w s r rest).2.deviceCount = s.deviceCount ∧
      ((stepWrite w s r rest).1 = false ∧ (stepWrite w s r rest).2.queue = s.queue ∧
          (w s.asked (.write r.device)).granted = false ∧
          device' = { dev with
            failed := true
            medium := store (select (w s.asked (.write r.device)).landed
              (cells start (head ++ merged.flatMap Pending.data))) dev.medium } ∨
        (stepWrite w s r rest).1 = true ∧
          device' = { dev with
            medium := store (cells start (head ++ merged.flatMap Pending.data)) dev.medium
            received := dev.received ++ writes start (head ++ merged.flatMap Pending.data)
            unflushed := true } ∧
          ((stepWrite w s r rest).2.queue = tail ∧ head = r.data.drop r.written ∨
            (stepWrite w s r rest).2.queue =
                { r with written := r.written + head.length } :: rest ∧
              merged = [] ∧ head ≠ [])) := by
  intro dev start
  unfold stepWrite
  dsimp only
  generalize count_eq : (if r.data.length - r.written < stepSectors then
    r.data.length - r.written else stepSectors) = count
  have bounded : count ≤ r.data.length - r.written ∧
      (0 < r.data.length - r.written → 0 < count) := by
    rw [← count_eq]
    unfold stepSectors
    split <;> omega
  have length : ((r.data.drop r.written).take count).length = count := by
    rw [length_take, length_drop]
    omega
  obtain ⟨tail, portion⟩ := portion_of_count r rest bounded.1
  have shape : (if count = r.data.length - r.written then
      mergedRecords r.device (r.lba + r.written) count rest else []) = [] ∨
      count = r.data.length - r.written := by
    by_cases whole : count = r.data.length - r.written
    · exact .inr whole
    · exact .inl (if_neg whole)
  generalize (if count = r.data.length - r.written then
    mergedRecords r.device (r.lba + r.written) count rest else []) = merged at portion shape ⊢
  have all : count = r.data.length - r.written →
      (r.data.drop r.written).take count = r.data.drop r.written := fun whole =>
    take_of_length_le (by rw [length_drop]; omega)
  generalize (r.data.drop r.written).take count = head at portion length all ⊢
  unfold driverWrite
  dsimp only
  split
  · rw [if_neg nofun]
    split
    · next short =>
      rw [length_append, length] at short
      have none : merged = [] := shape.resolve_right (by omega)
      refine ⟨_, head, merged, tail, portion, ?_, rfl, .inr ⟨rfl, rfl, .inr ⟨?_, none, ?_⟩⟩⟩
      · simp [markUnflushed, State.setDevice, State.answered, dev, start]
      · rw [none, flatMap_nil, append_nil]
      · rintro rfl
        rw [length_nil] at length
        omega
    · next long =>
      rw [length_append, length] at long
      have whole : count = r.data.length - r.written := by
        rcases shape with none | whole
        · rw [none, flatMap_nil, length_nil] at long
          omega
        · exact whole
      refine ⟨_, head, merged, tail, portion, ?_, (popMany_devices _ _).2,
        .inr ⟨rfl, rfl, .inl ⟨?_, all whole⟩⟩⟩
      · rw [(popMany_devices _ _).1]
        simp [markUnflushed, State.setDevice, State.answered, dev, start]
      · rw [popMany_queue]
        refine (congrArg (drop _) queue).trans ?_
        rw [drop_succ_cons, portion.parts, drop_left]
  · next refused =>
    refine ⟨_, head, merged, tail, portion, ?_, rfl,
      .inl ⟨rfl, rfl, Bool.not_eq_true _ |>.mp refused, rfl⟩⟩
    simp [fail, State.setDevice, State.answered, dev, start]

theorem queuedCells_mine (mine : ∀ r ∈ recs, r.device = i) :
    queuedCells i recs = recs.flatMap fun r => cells r.lba r.data := by
  refine flatMap_congr fun r ins => if_pos (mine r ins)

theorem queuedCommands_mine (mine : ∀ r ∈ recs, r.device = i) :
    queuedCommands i recs = recs.flatMap Pending.commands := by
  refine flatMap_congr fun r ins => if_pos (mine r ins)

/-- The commands of untouched records are the writes of their sectors. -/
theorem commands_untouched (fresh : ∀ r ∈ recs, r.written = 0 ∧ r.data.length ≠ 0) :
    recs.flatMap Pending.commands = (recs.flatMap fun r => cells r.lba r.data).map fun cell =>
        Command.write cell.1 cell.2 := by
  rw [map_flatMap]
  refine flatMap_congr fun r ins => ?_
  obtain ⟨start, nonempty⟩ := fresh r ins
  rw [Pending.commands, if_neg nonempty, start]
  rfl

/-- A record whose first sectors are on the medium. -/
theorem store_rest {medium : Nat → S}
    (landed : store (cells r.lba (r.data.take r.written)) medium = medium) :
    store (cells r.lba r.data) medium =
      store (cells (r.lba + r.written) (r.data.drop r.written)) medium := by
  have parts : cells r.lba r.data = cells r.lba (r.data.take r.written) ++
      cells (r.lba + (r.data.take r.written).length) (r.data.drop r.written) := by
    rw [← cells_append, take_append_drop]
  rw [parts, store_append, landed]
  rcases Nat.le_total r.written r.data.length with within | beyond
  · rw [length_take, Nat.min_eq_left within]
  · rw [drop_eq_nil_of_le beyond]
    rfl

/-- The sectors of a record that a request has moved on. -/
theorem store_advanced {medium : Nat → S} {head : List S}
    (landed : store (cells r.lba (r.data.take r.written)) medium = medium)
    (first : head <+: r.data.drop r.written) (proper : head ≠ []) :
    store (cells (r.lba + r.written) head) medium =
      store (cells r.lba (r.data.take (r.written + head.length))) medium := by
  obtain ⟨after, first⟩ := first
  have within : r.written < r.data.length := by
    have long := congrArg length first
    rw [length_append, length_drop] at long
    have := length_pos_of_ne_nil proper
    omega
  have taken : r.data.take (r.written + head.length) = r.data.take r.written ++ head := by
    rw [take_add, ← first, take_left]
  rw [taken, cells_append, store_append, landed, length_take, Nat.min_eq_left (Nat.le_of_lt within)]

theorem commands_advanced {head : List S} (nonempty : r.data.length ≠ 0)
    (first : head <+: r.data.drop r.written) :
    writes (r.lba + r.written) head ++
        Pending.commands { r with written := r.written + head.length } = r.commands := by
  obtain ⟨after, first⟩ := first
  have dropped : r.data.drop (r.written + head.length) = after := by
    rw [← drop_drop, ← first, drop_left]
  simp only [Pending.commands, nonempty, if_false]
  rw [dropped, ← first, writes_append, Nat.add_assoc]

/-- A refused request may have written any of its sectors; none was written before. -/
theorem landed_refused {merged : List (Pending S)} {medium : Nat → S} (which : Nat → Bool)
    (data : List S) (landed : store (cells r.lba (r.data.take r.written)) medium = medium)
    (fresh : ∀ other ∈ merged, other.written = 0) :
    ∀ other ∈ r :: merged, store (cells other.lba (other.data.take other.written))
        (store (select which (cells (r.lba + r.written) data)) medium) =
      store (select which (cells (r.lba + r.written) data)) medium := by
  refine forall_mem_cons.mpr ⟨?_, fun other ins => ?_⟩
  · rw [store_comm, landed]
    rintro ⟨low, _⟩ inLow ⟨high, _⟩ inHigh
    obtain ⟨i, rfl, found⟩ := mem_cells.mp inLow
    obtain ⟨off, rfl, _⟩ := mem_cells.mp ((select_sublist _ _).subset inHigh)
    have bound := (List.getElem?_eq_some_iff.mp found).1
    rw [length_take] at bound
    omega
  · rw [fresh other ins]
    rfl

namespace Portion

variable {merged tail : List (Pending S)} {head : List S} {medium : Nat → S}
  (portion : Portion r rest head merged tail)
include portion

theorem covered : ∀ write ∈ cells (r.lba + r.written) head, write ∈ cells r.lba r.data := by
  rintro ⟨a, v⟩ ins
  obtain ⟨i, rfl, found⟩ := mem_cells.mp ins
  obtain ⟨after, parts⟩ := portion.first
  refine mem_cells.mpr ⟨r.written + i, by omega, ?_⟩
  rw [← getElem?_drop, ← parts, getElem?_append_left]
  · exact found
  · exact (List.getElem?_eq_some_iff.mp found).1

theorem all_mine : ∀ other ∈ r :: merged, other.device = r.device :=
  forall_mem_cons.mpr ⟨rfl, fun other ins => (portion.mine other ins).1⟩

theorem queuedCells_eq : queuedCells r.device (r :: merged) =
    cells r.lba r.data ++ merged.flatMap fun other => cells other.lba other.data :=
  queuedCells_mine portion.all_mine

theorem commands_eq (nonempty : r.data.length ≠ 0) (whole : head = r.data.drop r.written)
    (fresh : ∀ other ∈ merged, other.written = 0) :
    writes (r.lba + r.written) (head ++ merged.flatMap Pending.data) =
      queuedCommands r.device (r :: merged) := by
  have untouched := fun other ins => And.intro (fresh other ins) (portion.mine other ins).2
  rw [queuedCommands_mine portion.all_mine, flatMap_cons, commands_untouched untouched,
    Pending.commands, if_neg nonempty, writes, writes, portion.joined, map_append, whole]

theorem view_refused (which : Nat → Bool) : store (queuedCells r.device (r :: merged))
      (store (select which (cells (r.lba + r.written) (head ++ merged.flatMap Pending.data)))
        medium) =
    store (queuedCells r.device (r :: merged)) medium := by
  rw [portion.queuedCells_eq, portion.joined]
  refine store_covered _ fun write ins => ⟨write.2, ?_⟩
  rcases mem_append.mp ((select_sublist _ _).subset ins) with first | later
  · exact mem_append_left _ (portion.covered write first)
  · exact mem_append_right _ later

end Portion

theorem stepWrite_quiet {w : World} (orderly : Orderly s)
    (queue : s.queue = r :: rest) (nonempty : r.data.length ≠ 0) :
    Quiet s (stepWrite w s r rest).2 := by
  have deferred := orderly.deferred r (queue ▸ mem_cons_self)
  have landed := orderly.landed r (queue ▸ mem_cons_self)
  have rests : ∀ other ∈ rest, other.written = 0 := by
    have untouched := orderly.untouched
    rw [queue] at untouched
    exact untouched
  obtain ⟨dev, head, merged, tail, portion, devices, count, res⟩ := stepWrite_cases w s r rest queue
  have mergedFresh : ∀ other ∈ merged, other.written = 0 := fun other ins =>
    rests other (portion.parts ▸ mem_append_left _ ins)
  have tailFresh : ∀ other ∈ tail, other.written = 0 := fun other ins =>
    rests other (portion.parts ▸ mem_append_right _ ins)
  have mine := portion.all_mine
  have parts : s.queue = r :: merged ++ tail := by
    rw [queue, portion.parts]
    rfl
  rcases res with ⟨_, same, _, rfl⟩ | ⟨_, rfl, ⟨popped, whole⟩ | ⟨shrunk, rfl, proper⟩⟩
  · -- refused: the queue is as it was
    have here : Local s _ r.device _ (r :: merged) (r :: merged) tail :=
      ⟨count, devices, rfl, parts, same.trans parts, mine, mine⟩
    refine here.quiet orderly deferred tailFresh ?_ (landed_refused _ _ landed mergedFresh)
      (orderly.clean r.device deferred) (portion.view_refused _) (fun _ => .refl _) rfl
    rw [cons_append, tail_cons, ← portion.parts]
    exact rests
  · -- the records of the request are done
    have here : Local s _ r.device _ (r :: merged) [] tail :=
      ⟨count, devices, rfl, parts, popped, mine, nofun⟩
    have same : (s.devices r.device).received ++ writes (r.lba + r.written)
        (head ++ merged.flatMap Pending.data) ++ queuedCommands r.device [] =
        (s.devices r.device).received ++ queuedCommands r.device (r :: merged) := by
      rw [portion.commands_eq nonempty whole mergedFresh]
      exact append_nil _
    refine here.quiet orderly deferred tailFresh
      (fun other ins => tailFresh other (mem_of_mem_tail ins)) nofun nofun ?_ (fun _ => ?_) ?_
    · rw [portion.queuedCells_eq, store_append, store_rest landed, ← whole, portion.joined,
        store_append]
      rfl
    · rw [same]
      exact .refl _
    · rw [same]
  · -- the first record has moved on
    have whole : tail = rest := portion.parts.symm
    subst whole
    rw [flatMap_nil, append_nil] at devices
    have mineNow : ∀ other ∈ [{ r with written := r.written + head.length }],
        other.device = r.device := fun other ins => by rw [mem_singleton.mp ins]
    have here : Local s _ r.device _ [r]
        [{ r with written := r.written + head.length }] tail :=
      ⟨count, devices, rfl, queue, shrunk, mine, mineNow⟩
    have same : (s.devices r.device).received ++ writes (r.lba + r.written) head ++
          queuedCommands r.device [{ r with written := r.written + head.length }] =
        (s.devices r.device).received ++ queuedCommands r.device [r] := by
      rw [queuedCommands_mine mine, queuedCommands_mine mineNow, flatMap_singleton,
        flatMap_singleton, append_assoc, commands_advanced nonempty portion.first]
    refine here.quiet orderly deferred tailFresh tailFresh ?_ nofun ?_ (fun _ => ?_) ?_
    · refine forall_mem_cons.mpr ⟨?_, nofun⟩
      rw [store_advanced landed portion.first proper]
      exact store_covered _ fun write ins => ⟨write.2, ins⟩
    · rw [queuedCells_mine mineNow, queuedCells_mine mine]
      simp only [flatMap_cons, flatMap_nil, append_nil]
      exact store_covered _ fun write ins => ⟨write.2, portion.covered write ins⟩
    · rw [same]
      exact .refl _
    · rw [same]

/-! ## Draining -/

variable (w : World)

theorem step_quiet (orderly : Orderly s) : Quiet s (step w s).2 := by
  unfold step
  split
  · exact .refl orderly
  · next r rest queue =>
    split
    · exact .refl orderly
    · split
      · next point => exact stepOrder_quiet orderly queue point
      · next nonempty => exact stepWrite_quiet orderly queue nonempty

theorem makeRoomLoop_quiet (bytes rounds : Nat) (orderly : Orderly s) :
    Quiet s (makeRoomLoop w bytes rounds s).2 := by
  induction rounds generalizing s with
  | zero => exact .refl orderly
  | succ rounds ih =>
    have stepped := step_quiet w orderly
    unfold makeRoomLoop
    split
    · dsimp only
      split
      · exact stepped
      · exact stepped.trans (ih stepped.orderly)
    · exact .refl orderly

theorem makeRoom_room {bytes rounds : Nat}
    (done : (makeRoomLoop w bytes rounds s).1 = true) :
      (makeRoomLoop w bytes rounds s).2.queue = [] ∨
      (makeRoomLoop w bytes rounds s).2.queuedBytes + bytes ≤ maxQueuedBytes := by
  induction rounds generalizing s with
  | zero => cases done
  | succ rounds ih =>
    unfold makeRoomLoop at done ⊢
    split at done
    · next full =>
      rw [if_pos full]
      dsimp only at done ⊢
      split at done
      · cases done
      · next stepped =>
        rw [if_neg stepped]
        exact ih done
    · next enough =>
      rw [if_neg enough]
      by_cases empty : s.queue.length = 0
      · exact .inl (length_eq_zero_iff.mp empty)
      · exact .inr (Nat.le_of_not_lt fun long => enough ⟨empty, long⟩)

/-- Draining makes room for more than the queue may hold. -/
theorem drainQueue_eq (rounds : Nat) (s : State S) :
    drainQueue w rounds s = makeRoomLoop w (maxQueuedBytes + 1) rounds s := by
  induction rounds generalizing s with
  | zero => rfl
  | succ rounds ih =>
    have full : maxQueuedBytes < s.queuedBytes + (maxQueuedBytes + 1) := Nat.le_add_left ..
    simp only [drainQueue, makeRoomLoop, ih, and_iff_left full]

theorem drainQueue_empty {rounds : Nat} (done : (drainQueue w rounds s).1 = true) :
    (drainQueue w rounds s).2.queue = [] := by
  rw [drainQueue_eq] at done ⊢
  exact (makeRoom_room w done).resolve_right (by omega)

/-- A change of one device while nothing is queued. -/
theorem quiet_of_empty {s s' : State S} {dev : Device S} (orderly : Orderly s)
    (empty : s.queue = []) (empty' : s'.queue = []) (count : s'.deviceCount = s.deviceCount)
    (devices : s'.devices = update s.devices i dev)
    (config : dev.config = (s.devices i).config) (deferred : (s.devices i).deferredWrites = true)
    (medium : dev.medium = (s.devices i).medium)
    (clean : dev.hasFlush = true → dev.unflushed = false → Flushed dev.received)
    (orders : Orders (s.devices i).received dev.received) : Quiet s s' := by
  have here : Local s s' i dev [] [] [] := ⟨count, devices, config, empty, empty', nofun, nofun⟩
  refine here.quiet orderly deferred nofun nofun nofun clean medium (fun _ => orders.append _) ?_
  exact (orders.append _).1

/-- The flush of a device at the end of a drain: what it leaves of the device. -/
theorem drainDevice_cases (w : World) (drained : Bool × State S) (i : Nat) :
    let dev := drained.2.devices i
    drainDevice w drained i = drained ∧
        (dev.present = true → dev.deferredWrites = true → dev.unflushed = false) ∨
      dev.deferredWrites = true ∧ ∃ device', (drainDevice w drained i).2.devices =
            update drained.2.devices i device' ∧
          (drainDevice w drained i).2.deviceCount = drained.2.deviceCount ∧
          (drainDevice w drained i).2.queue = drained.2.queue ∧
          ((drainDevice w drained i).1 = false ∧ dev.unflushed = true ∧ dev.hasFlush = true ∧
              (∃ tick, (w tick (.flush i)).granted = false) ∧
              device' = { dev with failed := true } ∨
            (drainDevice w drained i).1 = drained.1 ∧
              device' = { dev with
                received := if dev.hasFlush then dev.received ++ [.flush] else dev.received
                unflushed := false }) := by
  intro dev
  unfold drainDevice
  by_cases idle : dev.present = false ∨ dev.deferredWrites = false ∨ dev.unflushed = false
  · rw [if_pos idle]
    refine .inl ⟨rfl, fun present deferred => ?_⟩
    rcases idle with absent | direct | done
    · rw [present] at absent
      cases absent
    · rw [deferred] at direct
      cases direct
    · exact done
  rw [if_neg idle]
  rw [not_or, not_or, Bool.not_eq_false, Bool.not_eq_false, Bool.not_eq_false] at idle
  refine .inr ⟨idle.2.1, ?_⟩
  by_cases hasFlush : dev.hasFlush = true
  · rw [if_pos hasFlush]
    unfold driverFlush
    split
    · refine ⟨_, ?_, rfl, rfl, .inr ⟨rfl, rfl⟩⟩
      simp [markUnflushed, State.setDevice, State.answered, dev, hasFlush]
    · next refused =>
      exact ⟨_, rfl, rfl, rfl, .inl ⟨rfl, idle.2.2, hasFlush,
        ⟨_, Bool.not_eq_true _ |>.mp refused⟩, rfl⟩⟩
  · rw [if_neg hasFlush]
    refine ⟨_, rfl, rfl, rfl, .inr ⟨rfl, ?_⟩⟩
    rw [if_neg hasFlush]

/-- A deferred device without unflushed writes. -/
def Settled (s : State S) (i : Nat) : Prop :=
  (s.devices i).present = true → (s.devices i).deferredWrites = true →
    (s.devices i).unflushed = false

/-- What the end of a drain does to the devices. -/
structure Drained (first last : Bool × State S) : Prop where
  quiet : Quiet first.2 last.2
  empty : last.2.queue = []
  settled : ∀ i, Settled first.2 i → Settled last.2 i
  success : last.1 = true → first.1 = true

theorem drainDevice_drained {drained : Bool × State S} (i : Nat)
    (orderly : Orderly drained.2) (empty : drained.2.queue = []) :
    Drained drained (drainDevice w drained i) ∧
      ((drainDevice w drained i).1 = true → Settled (drainDevice w drained i).2 i) := by
  rcases drainDevice_cases w drained i with ⟨same, settled⟩ |
    ⟨deferred, dev, devices, count, queue, res⟩
  · rw [same]
    exact ⟨⟨.refl orderly, empty, fun _ kept => kept, id⟩, fun _ => settled⟩
  have mine : (drainDevice w drained i).2.devices i = dev := by rw [devices, update_self]
  have settled (here : Settled drained.2 i → Settled (drainDevice w drained i).2 i) (o : Nat)
      (kept : Settled drained.2 o) : Settled (drainDevice w drained i).2 o := by
    by_cases same : o = i
    · exact same ▸ here (same ▸ kept)
    · unfold Settled
      rw [devices, update_of_ne same]
      exact kept
  unfold Settled at settled ⊢
  rcases res with ⟨refused, dirty, hasFlush, _, rfl⟩ | ⟨same, rfl⟩
  · have failed : (drainDevice w drained i).1 ≠ true := by rw [refused]; exact nofun
    refine ⟨⟨?_, queue.trans empty, settled (by rw [mine]; exact id), (absurd · failed)⟩,
      (absurd · failed)⟩
    exact quiet_of_empty orderly empty (queue.trans empty) count devices rfl deferred rfl
      (orderly.clean i deferred) (.refl _)
  · rw [mine] at settled ⊢
    refine ⟨⟨?_, queue.trans empty, settled fun _ _ _ => rfl, fun success => same ▸ success⟩,
      fun _ _ _ => rfl⟩
    refine quiet_of_empty orderly empty (queue.trans empty) count devices rfl deferred rfl ?_ ?_
    · intro hasFlush _
      rw [if_pos hasFlush]
      exact .end _
    · split
      · exact .extra_flush _
      · exact .refl _

theorem drainDevices_drained (indices : List Nat) {drained : Bool × State S}
    (orderly : Orderly drained.2) (empty : drained.2.queue = []) :
    Drained drained (indices.foldl (drainDevice w) drained) ∧
      ((indices.foldl (drainDevice w) drained).1 = true →
        ∀ i ∈ indices, Settled (indices.foldl (drainDevice w) drained).2 i) := by
  induction indices generalizing drained with
  | nil => exact ⟨⟨.refl orderly, empty, fun _ kept => kept, id⟩, fun _ => nofun⟩
  | cons first rest ih =>
    obtain ⟨one, here⟩ := drainDevice_drained w first orderly empty
    obtain ⟨t, there⟩ := ih one.quiet.orderly one.empty
    refine ⟨⟨one.quiet.trans t.quiet, t.empty,
      fun i kept => t.settled i (one.settled i kept),
      fun success => one.success (t.success success)⟩, fun success => ?_⟩
    refine forall_mem_cons.mpr ⟨t.settled first (here (t.success success)), there success⟩

theorem drainAll_quiet (orderly : Orderly s) : Quiet s (drainAll w s).2 ∧
      ((drainAll w s).1 = true → (drainAll w s).2.queue = [] ∧
        ∀ i < s.deviceCount, Settled (drainAll w s).2 i) := by
  have quiet := makeRoomLoop_quiet w (maxQueuedBytes + 1) (s.work + 1) orderly
  rw [← drainQueue_eq] at quiet
  unfold drainAll
  dsimp only
  split
  · exact ⟨quiet, nofun⟩
  · next success =>
    have empty := drainQueue_empty w (Bool.not_eq_false _ |>.mp success)
    obtain ⟨drained, settled⟩ := @drainDevices_drained S w
      (range (drainQueue w (s.work + 1) s).2.deviceCount)
      (true, (drainQueue w (s.work + 1) s).2) quiet.orderly empty
    refine ⟨quiet.trans drained.quiet, fun success => ⟨drained.empty, fun i ins => ?_⟩⟩
    refine settled success i (mem_range.mpr ?_)
    rw [quiet.count]
    exact ins

end SavanXP.Block
