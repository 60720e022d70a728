import Mathlib

/-!
# A sector device with a volatile write cache

A device keeps a medium and the writes it has accepted since the last ordering
point.  Reads see every accepted write.  An ordering point closes an epoch: its
writes come before all later ones, but they need not be on the medium before the
device is synchronised.  A command may fail, leaving any subset of the sectors it
concerns behind, and the power may be cut, after which every later command is
refused.

A cut leaves the epochs up to some point and any subset of the sectors of the next
one (`Leaves`); on a device that holds no closed epoch back this is a subset of the
cached sectors (`Image`).  What an epoch can leave is described sector by sector:
`possible a v` says that `v` is on the medium below it or waiting in it for `a`.
-/

namespace SavanXP.Library

open List Function

/-- The entries of a list at the positions a mask selects. -/
def select {α : Type} : (Nat → Bool) → List α → List α
  | _, [] => []
  | mask, first :: rest =>
    let tail := select (fun i => mask (i + 1)) rest
    if mask 0 then first :: tail else tail

theorem select_sublist {α : Type} (mask : Nat → Bool) (entries : List α) :
    (select mask entries).Sublist entries := by
  induction entries generalizing mask with
  | nil => exact Sublist.slnil
  | cons first rest ih =>
    unfold select
    split
    · exact (ih _).cons_cons first
    · exact (ih _).cons first

@[simp]
theorem select_none {α : Type} (entries : List α) : select (fun _ => false) entries = [] := by
  induction entries with
  | nil => rfl
  | cons first rest ih => simp [select, ih]

/-- Some mask selects exactly the entries with a property. -/
theorem exists_select_filter {α : Type} (keep : α → Bool) (entries : List α) :
    ∃ mask, select mask entries = entries.filter keep := by
  induction entries with
  | nil => exact ⟨fun _ => false, rfl⟩
  | cons first rest ih =>
    obtain ⟨mask, same⟩ := ih
    refine ⟨fun i => if i = 0 then keep first else mask (i - 1), ?_⟩
    simp only [select, if_true, Nat.add_eq_zero_iff, Nat.one_ne_zero, and_false, if_false,
      Nat.add_sub_cancel, same, filter_cons]

section Store

variable {S : Type}

/-- Lay a list of sector writes, oldest first, over a medium. -/
def store : List (Nat × S) → (Nat → S) → Nat → S
  | [], medium => medium
  | (a, v) :: rest, medium => store rest (update medium a v)

theorem store_append (first second : List (Nat × S)) (medium : Nat → S) :
    store (first ++ second) medium = store second (store first medium) := by
  induction first generalizing medium with
  | nil => rfl
  | cons write rest ih => exact ih _

variable {writes : List (Nat × S)} {medium : Nat → S} {a : Nat}

theorem store_other (untouched : ∀ write ∈ writes, write.1 ≠ a) :
    store writes medium a = medium a := by
  induction writes generalizing medium with
  | nil => rfl
  | cons write rest ih =>
    obtain ⟨head, tail⟩ := forall_mem_cons.mp untouched
    exact (@ih (update medium write.1 write.2) tail).trans (update_of_ne (Ne.symm head) _ _)

/-- Every sector comes from the medium below or from one of the writes. -/
theorem store_source (writes : List (Nat × S)) (medium : Nat → S) (a : Nat) :
    store writes medium a = medium a ∨ (a, store writes medium a) ∈ writes := by
  induction writes generalizing medium with
  | nil => exact .inl rfl
  | cons write rest ih =>
    rcases ih (update medium write.1 write.2) with below | inRest
    · by_cases same : a = write.1
      · subst same
        right
        change (write.1, store rest _ write.1) ∈ _
        rw [below, update_self]
        exact mem_cons_self
      · left
        exact below.trans (update_of_ne same _ _)
    · exact .inr (mem_cons_of_mem _ inRest)

/-- When all writes to a sector agree, that sector holds the common value. -/
theorem store_agreed {v : S} (written : (a, v) ∈ writes)
    (agreed : ∀ other, (a, other) ∈ writes → other = v) :
    store writes medium a = v := by
  induction writes generalizing medium with
  | nil => cases written
  | cons write rest ih =>
    by_cases t : (a, v) ∈ rest
    · exact ih t (fun other inRest => agreed other (mem_cons_of_mem _ inRest))
    have head : (a, v) = write := by
      rcases mem_cons.mp written with here | inRest
      · exact here
      · exact absurd inRest t
    subst head
    rw [show store ((a, v) :: rest) medium = store rest (update medium a v) from rfl, store_other]
    · exact update_self _ _ _
    · intro other inRest same
      have equal := agreed other.2 (mem_cons_of_mem _ (same ▸ inRest))
      exact t (by rw [← same, ← equal]; exact inRest)

/-- A medium matters only where nothing is laid over it. -/
theorem store_congr {first second : Nat → S}
    (agree : ∀ a, (∀ v, (a, v) ∉ writes) → first a = second a) :
    store writes first = store writes second := by
  induction writes generalizing first second with
  | nil => exact funext fun a => agree a fun _ => not_mem_nil
  | cons write rest ih =>
    refine ih fun a untouched => ?_
    by_cases same : a = write.1
    · rw [same, update_self, update_self]
    rw [update_of_ne same, update_of_ne same]
    refine agree a fun v inside => ?_
    rcases mem_cons.mp inside with here | t
    · exact same (congrArg Prod.fst here)
    · exact untouched v t

/-- Writes to sectors that are written again make no difference. -/
theorem store_covered {inner outer : List (Nat × S)} (medium : Nat → S)
    (covered : ∀ write ∈ inner, ∃ v, (write.1, v) ∈ outer) :
    store outer (store inner medium) = store outer medium := by
  refine store_congr fun a untouched => store_other fun write inside same => ?_
  obtain ⟨v, again⟩ := covered write inside
  exact untouched v (same ▸ again)

theorem update_store (v : S) (outside : ∀ write ∈ writes, write.1 ≠ a) :
    update (store writes medium) a v = store writes (update medium a v) := by
  induction writes generalizing medium with
  | nil => rfl
  | cons write rest ih =>
    obtain ⟨different, t⟩ := forall_mem_cons.mp outside
    rw [store, store, ih t, update_comm different]

/-- Writes to different sectors can be made in either order. -/
theorem store_comm {first second : List (Nat × S)} (medium : Nat → S)
    (apart : ∀ left ∈ first, ∀ right ∈ second, right.1 ≠ left.1) :
    store first (store second medium) = store second (store first medium) := by
  induction first generalizing medium with
  | nil => rfl
  | cons write rest ih =>
    obtain ⟨different, t⟩ := forall_mem_cons.mp apart
    rw [store, store, update_store _ different, ih _ t]

/-- The sector writes of one command that starts at `lba`. -/
def cells : Nat → List S → List (Nat × S)
  | _, [] => []
  | lba, v :: rest => (lba, v) :: cells (lba + 1) rest

theorem mem_cells {lba : Nat} {data : List S} {v : S} : (a, v) ∈ cells lba data ↔
      ∃ i, a = lba + i ∧ data[i]? = some v := by
  induction data generalizing lba with
  | nil => simp [cells]
  | cons first rest ih =>
    rw [cells, mem_cons, ih]
    constructor
    · rintro (here | ⟨i, pos, found⟩)
      · cases here
        exact ⟨0, rfl, rfl⟩
      · exact ⟨i + 1, by omega, by simpa using found⟩
    · rintro ⟨i, pos, found⟩
      cases i with
      | zero =>
        left
        simp only [getElem?_cons_zero, Option.some.injEq] at found
        rw [found, pos, Nat.add_zero]
      | succ i => exact .inr ⟨i, by omega, by simpa using found⟩

theorem mem_cells_single {lba : Nat} {sector v : S} :
    (a, v) ∈ cells lba [sector] ↔ a = lba ∧ v = sector := by
  simp only [cells, mem_singleton, Prod.mk.injEq]

theorem cells_append (lba : Nat) (first second : List S) :
    cells lba (first ++ second) = cells lba first ++ cells (lba + first.length) second := by
  induction first generalizing lba with
  | nil => rfl
  | cons v rest ih =>
    simp [cells, ih, Nat.add_comm, Nat.add_left_comm]

theorem store_cells (lba : Nat) (data : List S) (medium : Nat → S) (a : Nat) :
    store (cells lba data) medium a =
      if lba ≤ a then (data[a - lba]?).getD (medium a) else medium a := by
  induction data generalizing lba medium with
  | nil => simp [cells, store]
  | cons v rest ih =>
    rw [cells, store, ih]
    by_cases here : a = lba
    · subst here
      rw [if_neg (by omega), if_pos (Nat.le_refl _), Nat.sub_self, update_self]
      rfl
    · by_cases t : lba + 1 ≤ a
      · rw [if_pos t, if_pos (by omega), update_of_ne here,
          show a - lba = (a - (lba + 1)) + 1 by omega, getElem?_cons_succ]
      · rw [if_neg t, if_neg (by omega), update_of_ne here]

theorem store_cells_single (lba : Nat) (v : S) (medium : Nat → S) :
    store (cells lba [v]) medium lba = v := by
  simp [cells, store]

end Store

/-- What the device does with one command. -/
inductive Fate where
  | ok
  | fail (landed kept : Nat → Bool)
  | cut (landed : Nat → Bool)

/-- A medium and the writes above it that may reach it in any order. -/
structure Epoch (S : Type) where
  medium : Nat → S
  writes : List (Nat × S)

/-- A device: the medium with all closed epochs, the writes since the last ordering
point (oldest first), the epochs it may still hold back (newest first), and what
will happen to its next commands.  An empty plan is a device on which every command
works. -/
structure Disk (S : Type) where
  medium : Nat → S
  cached : List (Nat × S)
  past : List (Epoch S) := []
  sectorCount : Nat
  writable : Bool
  powered : Bool
  plan : List Fate

namespace Disk

variable {S : Type}

/-- A device that was just powered up. -/
def boot (medium : Nat → S) (sectorCount : Nat) (writable : Bool) (plan : List Fate) : Disk S :=
  ⟨medium, [], [], sectorCount, writable, true, plan⟩

section

variable (disk : Disk S)

/-- What a read returns: every accepted write over the medium. -/
def view : Nat → S :=
  store disk.cached disk.medium

/-- The power goes in the current epoch: any subset of its sectors is on the medium. -/
def lose (landed : Nat → Bool) : Disk S :=
  { disk with
    medium := store (select landed disk.cached) disk.medium
    cached := []
    powered := false }

def fate : Fate :=
  disk.plan.headD .ok

def tick : Disk S :=
  { disk with plan := disk.plan.tail }

def inRange (lba n : Nat) : Bool :=
  n ≠ 0 && lba < disk.sectorCount && n ≤ disk.sectorCount - lba

def push (writes : List (Nat × S)) : Disk S :=
  { disk with cached := disk.cached ++ writes }

def epoch : Epoch S := ⟨disk.medium, disk.cached⟩

/-- The current epoch is closed. -/
def settle : Disk S :=
  { disk with medium := disk.view, cached := [], past := disk.epoch :: disk.past }

/-- Everything is on the medium. -/
def harden : Disk S :=
  { disk with medium := disk.view, cached := [], past := [] }

/-- Read `n` sectors; the buffer is indexed from the first one. -/
def read (lba n : Nat) : Option (Nat → S) × Disk S :=
  if disk.powered && disk.inRange lba n then
    match disk.fate with
    | .ok => (some (fun i => disk.view (lba + i)), disk.tick)
    | .fail _ _ => (none, disk.tick)
    | .cut landed => (none, disk.tick.lose landed)
  else (none, disk)

/-- A write that may land in any order until the next ordering point. -/
def writeCached (lba : Nat) (data : List S) : Bool × Disk S :=
  if disk.powered && disk.writable && disk.inRange lba data.length then
    match disk.fate with
    | .ok => (true, disk.tick.push (cells lba data))
    | .fail landed _ => (false, disk.tick.push (select landed (cells lba data)))
    | .cut landed => (false, (disk.tick.push (cells lba data)).lose landed)
  else (false, disk)

/-- A command about the cached writes; some of them may be lost where it fails. -/
def drain (worked : Disk S) : Bool × Disk S :=
  match disk.fate with
  | .ok => (true, worked)
  | .fail landed kept =>
    (false, { disk.tick with
      medium := store (select landed disk.cached) disk.medium
      cached := select kept disk.cached
      past := disk.epoch :: disk.past })
  | .cut landed => (false, disk.tick.lose landed)

/-- The ordering point. -/
def flush : Bool × Disk S :=
  if disk.powered && disk.writable then disk.drain disk.tick.settle else (false, disk)

def sync : Bool × Disk S :=
  if disk.powered then disk.drain disk.tick.harden else (false, disk)

/-- A write that is on the medium when it returns. -/
def write (lba : Nat) (data : List S) : Bool × Disk S :=
  match disk.writeCached lba data with
  | (false, disk) => (false, disk)
  | (true, disk) =>
    match disk.flush with
    | (false, disk) => (false, disk)
    | (true, disk) => disk.sync

end

/-- Durable writes one after another, up to the first that fails. -/
def writeAll : List (Nat × List S) → Disk S → Bool × Disk S
  | [], disk => (true, disk)
  | command :: rest, disk =>
    let written := disk.write command.1 command.2
    if written.1 then writeAll rest written.2 else written

/-- The values a sector can have on the medium, now or after a cut. -/
def possible (disk : Disk S) (a : Nat) (v : S) : Prop :=
  v = disk.medium a ∨ (a, v) ∈ disk.cached

/-- A medium that a cut can leave behind in the current epoch. -/
def Image (disk : Disk S) (medium : Nat → S) : Prop :=
  ∃ landed : Nat → Bool, medium = store (select landed disk.cached) disk.medium

/-- The device as it was in an epoch, without power. -/
def before (disk : Disk S) (epoch : Epoch S) : Disk S :=
  ⟨epoch.medium, epoch.writes, [], disk.sectorCount, disk.writable, false, []⟩

/-- A medium that a cut can leave behind, in the current epoch or in one that was held
back. -/
def Leaves (disk : Disk S) (medium : Nat → S) : Prop :=
  disk.Image medium ∨ ∃ epoch ∈ disk.past, (disk.before epoch).Image medium

variable {disk : Disk S}

theorem possible_of_store {writes : List (Nat × S)}
    (included : ∀ write ∈ writes, write ∈ disk.cached) (a : Nat) :
    disk.possible a (store writes disk.medium a) := by
  rcases store_source writes disk.medium a with below | written
  · exact .inl below
  · exact .inr (included _ written)

theorem Image.possible {medium : Nat → S} (image : disk.Image medium) (a : Nat) :
    disk.possible a (medium a) := by
  obtain ⟨landed, rfl⟩ := image
  exact possible_of_store (select_sublist landed _).subset a

theorem view_possible (disk : Disk S) (a : Nat) : disk.possible a (disk.view a) :=
  possible_of_store (fun _ cached => cached) a

theorem possible.on_medium (settled : disk.cached = []) {a : Nat} {v : S}
    (held : disk.possible a v) : v = disk.medium a :=
  held.resolve_right (settled ▸ not_mem_nil)

/-! ## What a command can change -/

/-- From `disk` to `t` the possible contents only shrink, apart from the
`fresh` writes, in the epochs closed on the way too, and the device stays the same
one. -/
structure Touches (disk : Disk S) (fresh : Nat → S → Prop) (t : Disk S) : Prop where
  possible : ∀ a v, t.possible a v →
    disk.possible a v ∨ fresh a v
  past : ∀ epoch ∈ t.past, epoch ∈ disk.past ∨
    ∀ a v, (t.before epoch).possible a v → disk.possible a v ∨ fresh a v
  sectorCount : t.sectorCount = disk.sectorCount
  writable : t.writable = disk.writable

/-- Nothing new can appear on the medium. -/
abbrev Keeps (disk t : Disk S) : Prop :=
  disk.Touches (fun _ _ => False) t

theorem Touches.refl (disk : Disk S) (fresh : Nat → S → Prop) : disk.Touches fresh disk :=
  ⟨fun _ _ held => .inl held, fun _ old => .inl old, rfl, rfl⟩

variable {t : Disk S} {fresh : Nat → S → Prop}

theorem Touches.mono {wider : Nat → S → Prop} (touches : disk.Touches fresh t)
    (weaker : ∀ a v, fresh a v → wider a v) : disk.Touches wider t :=
  ⟨fun a v held => (touches.possible a v held).imp id (weaker a v),
    fun epoch closed => (touches.past epoch closed).imp id
      fun new a v held => (new a v held).imp id (weaker a v),
    touches.sectorCount, touches.writable⟩

theorem Keeps.touches (keeps : disk.Keeps t) (fresh : Nat → S → Prop) :
    disk.Touches fresh t :=
  keeps.mono (fun _ _ impossible => impossible.elim)

theorem Touches.trans {middle : Disk S} (first : disk.Touches fresh middle)
    (second : middle.Touches fresh t) : disk.Touches fresh t := by
  have back : ∀ a v, middle.possible a v ∨ fresh a v → disk.possible a v ∨ fresh a v :=
    fun a v held => held.elim (first.possible a v) .inr
  refine ⟨fun a v held => back a v (second.possible a v held), fun epoch closed => ?_,
    second.sectorCount.trans first.sectorCount, second.writable.trans first.writable⟩
  rcases second.past epoch closed with old | new
  · exact first.past epoch old
  · exact .inr fun a v held => back a v (new a v held)

/-- What holds of the epochs held back and of every device that is touched alike holds of
the epochs closed on the way. -/
theorem Touches.recorded {history : Disk S → Prop} (touches : disk.Touches fresh t)
    (new : ∀ t, disk.Touches fresh t → history t)
    (past : ∀ epoch ∈ disk.past, history (disk.before epoch)) :
    ∀ epoch ∈ t.past, history (t.before epoch) := by
  intro epoch closed
  rcases touches.past epoch closed with old | possible
  · have same := past epoch old
    rwa [before, ← touches.sectorCount, ← touches.writable] at same
  · exact new _ ⟨possible, nofun, touches.sectorCount, touches.writable⟩

/-- A sector outside the fresh writes keeps its only possible value. -/
theorem Touches.only (touches : disk.Touches fresh t) {a : Nat} {property : S → Prop}
    (before : ∀ v, disk.possible a v → property v) (outside : ∀ v, fresh a v → property v) :
    ∀ v, t.possible a v → property v := by
  intro v held
  rcases touches.possible a v held with old | new
  · exact before v old
  · exact outside v new

section

variable (disk : Disk S)

theorem tick_keeps : disk.Keeps disk.tick :=
  ⟨fun _ _ held => .inl held, fun _ old => .inl old, rfl, rfl⟩

theorem lose_keeps (landed : Nat → Bool) : disk.Keeps (disk.lose landed) := by
  refine ⟨fun a v held => ?_, fun _ old => .inl old, rfl, rfl⟩
  rw [held.on_medium rfl]
  exact .inl (possible_of_store (select_sublist landed _).subset a)

theorem push_touches (writes : List (Nat × S)) :
    disk.Touches (fun a v => (a, v) ∈ writes) (disk.push writes) := by
  refine ⟨?_, fun _ old => .inl old, rfl, rfl⟩
  rintro a v (rfl | cached)
  · exact .inl (.inl rfl)
  · rcases mem_append.mp cached with old | new
    · exact .inl (.inr old)
    · exact .inr new

theorem epoch_past (epoch : Epoch S) (closed : epoch ∈ disk.epoch :: disk.past) :
    epoch ∈ disk.past ∨ ∀ a v, (disk.before epoch).possible a v → disk.possible a v ∨ False := by
  rcases mem_cons.mp closed with rfl | old
  · exact .inr fun _ _ held => .inl held
  · exact .inl old

theorem settle_keeps : disk.Keeps disk.settle := by
  refine ⟨fun a v held => ?_, disk.epoch_past, rfl, rfl⟩
  rw [held.on_medium rfl]
  exact .inl (disk.view_possible a)

theorem harden_keeps : disk.Keeps disk.harden :=
  ⟨disk.settle_keeps.possible, nofun, rfl, rfl⟩

theorem read_keeps (lba n : Nat) : disk.Keeps (disk.read lba n).2 := by
  unfold read
  split
  · split
    · exact disk.tick_keeps
    · exact disk.tick_keeps
    · exact disk.tick_keeps.trans (disk.tick.lose_keeps _)
  · exact Touches.refl _ _

theorem writeCached_touches (lba : Nat) (data : List S) :
    disk.Touches (fun a v => (a, v) ∈ cells lba data) (disk.writeCached lba data).2 := by
  have ticked := disk.tick_keeps.touches (fun a v => (a, v) ∈ cells lba data)
  unfold writeCached
  split
  · split
    · exact ticked.trans (disk.tick.push_touches _)
    · refine ticked.trans ((disk.tick.push_touches _).mono ?_)
      exact fun _ _ selected => (select_sublist _ _).subset selected
    · exact (ticked.trans (disk.tick.push_touches _)).trans
        (Keeps.touches (lose_keeps _ _) _)
  · exact Touches.refl _ _

theorem drain_keeps {worked : Disk S} (keeps : disk.Keeps worked) :
    disk.Keeps (disk.drain worked).2 := by
  unfold drain
  split
  · exact keeps
  · refine ⟨?_, disk.epoch_past, rfl, rfl⟩
    rintro a v (rfl | kept)
    · exact .inl (possible_of_store
        (fun _ selected => (select_sublist _ _).subset selected) a)
    · exact .inl (.inr ((select_sublist _ _).subset kept))
  · exact disk.tick_keeps.trans (disk.tick.lose_keeps _)

theorem flush_keeps : disk.Keeps disk.flush.2 := by
  unfold flush
  split
  · exact disk.drain_keeps (disk.tick_keeps.trans disk.tick.settle_keeps)
  · exact Touches.refl _ _

theorem sync_keeps : disk.Keeps disk.sync.2 := by
  unfold sync
  split
  · exact disk.drain_keeps (disk.tick_keeps.trans disk.tick.harden_keeps)
  · exact Touches.refl _ _

theorem write_touches (lba : Nat) (data : List S) :
    disk.Touches (fun a v => (a, v) ∈ cells lba data) (disk.write lba data).2 := by
  have cached := disk.writeCached_touches lba data
  unfold write
  split
  · next middle written =>
    rw [written] at cached
    exact cached
  · next middle written =>
    rw [written] at cached
    have flushed := cached.trans (middle.flush_keeps.touches _)
    split
    · next last ordered =>
      rw [ordered] at flushed
      exact flushed
    · next last ordered =>
      rw [ordered] at flushed
      exact flushed.trans (last.sync_keeps.touches _)

end

/-! ## What a command that returns true did -/

variable {lba n : Nat}

theorem read_some {buf : Nat → S} (done : disk.read lba n = (some buf, t)) :
    buf = (fun i => disk.view (lba + i)) ∧ t = disk.tick := by
  unfold read at done
  split at done
  · split at done <;> cases done
    exact ⟨rfl, rfl⟩
  · cases done

variable {data : List S}

theorem writeCached_true (done : disk.writeCached lba data = (true, t)) :
    t = disk.tick.push (cells lba data) := by
  unfold writeCached at done
  split at done
  · split at done <;> cases done
    rfl
  · cases done

theorem drain_true {worked : Disk S} (done : disk.drain worked = (true, t)) : t = worked := by
  unfold drain at done
  split at done <;> cases done
  rfl

theorem flush_true (done : disk.flush = (true, t)) : t = disk.tick.settle := by
  unfold flush at done
  split at done
  · exact drain_true done
  · cases done

theorem sync_true (done : disk.sync = (true, t)) : t = disk.tick.harden := by
  unfold sync at done
  split at done
  · exact drain_true done
  · cases done


/-- After an ordering point a sector can only hold what reads return. -/
theorem flush_true_possible (done : disk.flush = (true, t)) {a : Nat} {v : S}
    (held : t.possible a v) : v = disk.view a := by
  rw [flush_true done] at held
  exact held.on_medium rfl

@[simp]
theorem view_tick (disk : Disk S) : disk.tick.view = disk.view := rfl

theorem write_true (done : disk.write lba data = (true, t)) :
    t.cached = [] ∧ t.medium = store (cells lba data) disk.view := by
  unfold write at done
  split at done
  · cases done
  · next middle written =>
    have cached := writeCached_true written
    split at done
    · cases done
    · next last ordered =>
      have flushed := flush_true ordered
      have synced := sync_true done
      subst cached flushed synced
      exact ⟨rfl, by simp only [tick, settle, harden, push, view, store, store_append]⟩

/-- The sector writes of several commands, in order. -/
def allCells (commands : List (Nat × List S)) : List (Nat × S) :=
  commands.flatMap fun command => cells command.1 command.2

theorem writeAll_true {commands : List (Nat × List S)} (done : (writeAll commands disk).1 = true) :
    (writeAll commands disk).2.view = store (allCells commands) disk.view := by
  induction commands generalizing disk with
  | nil => rfl
  | cons command rest ih =>
    unfold writeAll at done ⊢
    by_cases written : (disk.write command.1 command.2).1
    · simp only [written, if_true] at done ⊢
      obtain ⟨cached, medium⟩ := write_true (Prod.ext written rfl)
      have after : (disk.write command.1 command.2).2.view =
          store (cells command.1 command.2) disk.view := by
        rw [view, cached, medium]
        rfl
      rw [ih done, after, allCells, allCells, flatMap_cons, store_append]
    · simp only [written, Bool.false_eq_true, if_false] at done

/-- The device accepted exactly `writes` and did nothing else. -/
structure Wrote (disk : Disk S) (writes : List (Nat × S)) (t : Disk S) : Prop where
  medium : t.medium = disk.medium
  cached : t.cached = disk.cached ++ writes

theorem Wrote.nil (disk : Disk S) : disk.Wrote [] disk := ⟨rfl, (append_nil _).symm⟩

section

variable {epoch : Epoch S} (closed : epoch ∈ disk.past)
include closed

/-- Only a synchronisation gives up an epoch that is held back. -/
theorem writeCached_past (lba : Nat) (data : List S) :
    epoch ∈ (disk.writeCached lba data).2.past := by
  unfold writeCached
  split
  · split <;> exact closed
  · exact closed

theorem flush_past : epoch ∈ disk.flush.2.past := by
  unfold flush drain
  split
  · split
    · exact mem_cons_of_mem _ closed
    · exact mem_cons_of_mem _ closed
    · exact closed
  · exact closed

end

theorem Wrote.trans {middle : Disk S} {first second : List (Nat × S)}
    (one : disk.Wrote first middle) (two : middle.Wrote second t) :
    disk.Wrote (first ++ second) t :=
  ⟨two.medium.trans one.medium, by rw [two.cached, one.cached, append_assoc]⟩

theorem Wrote.view {writes : List (Nat × S)} (wrote : disk.Wrote writes t) :
    t.view = store writes disk.view := by
  rw [Disk.view, wrote.medium, wrote.cached, store_append]
  rfl

theorem writeCached_wrote (done : disk.writeCached lba data = (true, t)) :
    disk.Wrote (cells lba data) t := by
  rw [writeCached_true done]
  exact ⟨rfl, rfl⟩

/-! ## A device on which everything works -/

/-- Nothing is going to fail and the power stays on. -/
structure Healthy (disk : Disk S) : Prop where
  powered : disk.powered = true
  writable : disk.writable = true
  plan : disk.plan = []

/-- The same device with other fates ahead of it. -/
def withPlan (disk : Disk S) (plan : List Fate) : Disk S :=
  { disk with plan := plan }

theorem withPlan_keeps (disk : Disk S) (plan : List Fate) : disk.Keeps (disk.withPlan plan) :=
  ⟨fun _ _ held => .inl held, fun _ old => .inl old, rfl, rfl⟩

section

variable (healthy : disk.Healthy)
include healthy

theorem Healthy.fate : disk.fate = .ok := by
  rw [Disk.fate, healthy.plan]
  rfl

theorem Healthy.tick : disk.tick = disk := by
  have plan := healthy.plan
  cases disk
  subst plan
  rfl

theorem Healthy.push (writes : List (Nat × S)) : (disk.push writes).Healthy :=
  { healthy with }

theorem Healthy.settle : disk.settle.Healthy :=
  { healthy with }

theorem Healthy.harden : disk.harden.Healthy :=
  { healthy with }

theorem Healthy.read (range : disk.inRange lba n = true) :
    disk.read lba n = (some (fun i => disk.view (lba + i)), disk) := by
  unfold Disk.read
  simp only [healthy.powered, range, healthy.fate, healthy.tick, Bool.and_self, ↓reduceIte]

theorem Healthy.writeCached (range : disk.inRange lba data.length = true) :
    disk.writeCached lba data = (true, disk.push (cells lba data)) := by
  unfold Disk.writeCached
  simp only [healthy.powered, healthy.writable, range, healthy.fate, healthy.tick, Bool.and_self,
    ↓reduceIte]

theorem Healthy.flush : disk.flush = (true, disk.settle) := by
  unfold Disk.flush drain
  simp only [healthy.powered, healthy.writable, healthy.fate, healthy.tick, Bool.and_self,
    ↓reduceIte]

theorem Healthy.write (range : disk.inRange lba data.length = true) :
    disk.write lba data = (true, (disk.push (cells lba data)).harden) := by
  have pushed := healthy.push (cells lba data)
  unfold Disk.write
  simp only [healthy.writeCached range, pushed.flush]
  unfold sync drain
  simp only [pushed.settle.powered, pushed.settle.fate, pushed.settle.tick, ↓reduceIte]
  rfl

theorem Healthy.writeAll {commands : List (Nat × List S)}
    (range : ∀ command ∈ commands, disk.inRange command.1 command.2.length = true) :
    (disk.writeAll commands).1 = true ∧ (disk.writeAll commands).2.Healthy ∧
      (disk.writeAll commands).2.sectorCount = disk.sectorCount := by
  induction commands generalizing disk with
  | nil => exact ⟨rfl, healthy, rfl⟩
  | cons command rest ih =>
    obtain ⟨here, t⟩ := forall_mem_cons.mp range
    have pushed := (healthy.push (cells command.1 command.2)).harden
    unfold writeAll
    rw [healthy.write here]
    exact ih pushed t


/-- A healthy device obeys the first of the fates ahead of it. -/
theorem Healthy.writeCached_fated (range : disk.inRange lba data.length = true) (plan : List Fate) :
    (disk.withPlan plan).writeCached lba data =
      match plan.headD .ok with
      | .ok => (true, (disk.withPlan plan.tail).push (cells lba data))
      | .fail landed _ => (false, (disk.withPlan plan.tail).push (select landed (cells lba data)))
      | .cut landed => (false, ((disk.withPlan plan.tail).push (cells lba data)).lose landed) :=
  if_pos <| Bool.and_eq_true_iff.mpr
    ⟨Bool.and_eq_true_iff.mpr ⟨healthy.powered, healthy.writable⟩, range⟩

theorem Healthy.flush_fated (plan : List Fate) :
    (disk.withPlan plan).flush =
      (disk.withPlan plan).drain (disk.withPlan plan).tick.settle :=
  if_pos <| Bool.and_eq_true_iff.mpr ⟨healthy.powered, healthy.writable⟩

theorem Healthy.writeCached_scripted
    (range : disk.inRange lba data.length = true) (rest : List Fate) :
    (disk.withPlan (.ok :: rest)).writeCached lba data =
      (true, (disk.push (cells lba data)).withPlan rest) :=
  healthy.writeCached_fated range (.ok :: rest)

theorem Healthy.flush_scripted (rest : List Fate) :
    (disk.withPlan (.ok :: rest)).flush = (true, disk.settle.withPlan rest) :=
  healthy.flush_fated (.ok :: rest)

theorem Healthy.flush_cut (landed : Nat → Bool) (rest : List Fate) :
    (disk.withPlan (.cut landed :: rest)).flush = (false, (disk.withPlan rest).lose landed) :=
  healthy.flush_fated (.cut landed :: rest)

theorem Healthy.write_scripted (range : disk.inRange lba data.length = true) (rest : List Fate) :
    (disk.withPlan (.ok :: .ok :: .ok :: rest)).write lba data =
      (true, (disk.push (cells lba data)).harden.withPlan rest) := by
  have pushed := healthy.push (cells lba data)
  unfold Disk.write
  rw [healthy.writeCached_scripted range]
  simp only [pushed.flush_scripted]
  exact if_pos healthy.powered

/-- A write that fails without any effect. -/
theorem Healthy.writeCached_refused
    (range : disk.inRange lba data.length = true) (kept : Nat → Bool) (rest : List Fate) :
    (disk.withPlan (.fail (fun _ => false) kept :: rest)).writeCached lba data =
      (false, disk.withPlan rest) := by
  rw [healthy.writeCached_fated range]
  change (false, (disk.withPlan rest).push (select (fun _ => false) (cells lba data))) = _
  rw [select_none, Disk.push, append_nil]

end

theorem inRange_iff : disk.inRange lba n = true ↔ 0 < n ∧ lba + n ≤ disk.sectorCount := by
  unfold inRange
  simp only [ne_eq, Bool.and_eq_true, decide_eq_true_eq]
  omega

end Disk

end SavanXP.Library
