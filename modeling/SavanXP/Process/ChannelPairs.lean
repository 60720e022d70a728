import SavanXP.Process.Channels
import SavanXP.Process.ObjectFrames

/-!
# What a channel call borrows

A channel call takes what is free: a pipe slot and two stream slots for each pair
it makes.  `Machine.tables` forgets what the free slots hold, so a call that leaves
nothing behind is one that leaves its tables as they were.  `Lent` says which ends
a call holds at the moment, with the references to each, and that the tables are
otherwise those it has found.
-/

namespace SavanXP.Objects

open Library List Function Machine

/-! ## The tables without their free slots -/

/-- The objects and the pipes in use, and the tables of the processes and the ports. -/
@[ext]
structure Tables where
  objects : Ref → Option (Header × Stream)
  pipes : PipeId → Option Pipe
  handles : Process → Fd → Option Handle
  ports : PortId → Port

def Tables.setObject (tables : Tables) (ref : Ref) (obj : Option (Header × Stream)) : Tables :=
  { tables with objects := update tables.objects ref obj }

def Tables.setPipe (tables : Tables) (pipe : PipeId) (r : Option Pipe) : Tables :=
  { tables with pipes := update tables.pipes pipe r }

theorem Tables.setPipe_setPipe (tables : Tables) (pipe : PipeId) (old r : Option Pipe) :
    (tables.setPipe pipe old).setPipe pipe r = tables.setPipe pipe r := by
  simp [Tables.setPipe]

namespace Machine

variable {m t : Machine} {str : StreamId} {pipe : PipeId}

/-- The stream in a slot; other objects hold none. -/
def record (m : Machine) : Ref → Stream
  | .stream str => m.streams str
  | _ => {}

def tables (m : Machine) : Tables where
  objects ref := if m.inUse ref then some (m.headers ref, m.record ref) else none
  pipes pipe := if (m.pipes pipe).inUse then some (m.pipes pipe) else none
  handles := m.handles
  ports := m.ports

theorem tables_isSome (m : Machine) (ref : Ref) : (m.tables.objects ref).isSome = m.inUse ref := by
  cases used : m.inUse ref <;> simp [tables, used]

theorem tables_pipe_isSome (m : Machine) (pipe : PipeId) :
    (m.tables.pipes pipe).isSome = (m.pipes pipe).inUse := by
  cases used : (m.pipes pipe).inUse <;> simp [tables, used]

variable {hdr : Header}

/-- A stream in use, with its header and its record. -/
theorem tables_object {r : Stream} (here : m.tables.objects (.stream str) = some (hdr, r)) :
    m.inUse (.stream str) = true ∧ m.headers (.stream str) = hdr ∧ m.streams str = r := by
  unfold tables at here
  dsimp only at here
  split at here
  next used =>
    cases here
    exact ⟨used, rfl, rfl⟩
  · cases here

theorem tables_pipe {r : Pipe} (here : m.tables.pipes pipe = some r) : m.pipes pipe = r := by
  unfold tables at here
  dsimp only at here
  split at here
  · exact Option.some.inj here
  · cases here

theorem tables_free (free : m.inUse (.stream str) = false) :
    m.tables.objects (.stream str) = none := by
  simp [tables, free]

theorem tables_freePipe (free : (m.pipes pipe).inUse = false) : m.tables.pipes pipe = none := by
  simp [tables, free]

/-- One stream slot changes. -/
theorem tables_stream (m t : Machine) (str : StreamId) (hdr : Header)
    (r : Stream) (headers : t.headers = update m.headers (.stream str) hdr)
    (streams : t.streams = update m.streams str r)
    (pipes : t.pipes = m.pipes) (handles : t.handles = m.handles)
    (ports : t.ports = m.ports) : t.tables = m.tables.setObject (.stream str)
      (if hdr.inUse then some (hdr, r) else none) := by
  refine Tables.ext (funext fun ref => ?_) ?_ handles ports
  · by_cases here : ref = .stream str
    · subst here
      simp [tables, Tables.setObject, inUse, record, headers, streams]
    have kept : t.record ref = m.record ref := by
      cases ref with
      | stream o =>
        have apart : o ≠ str := fun eq => here (congrArg Ref.stream eq)
        simp [record, streams, apart]
      | _ => rfl
    unfold Tables.setObject tables inUse
    simp only [headers, update_of_ne here, kept]
  · unfold tables
    simp only [pipes]
    rfl

theorem tables_create (m : Machine) (str : StreamId) :
    (m.create (.stream str)).tables = m.tables.setObject (.stream str)
      (some ({ inUse := true, birth := m.births }, {})) :=
  tables_stream m _ str { inUse := true, birth := m.births } {} rfl rfl rfl rfl rfl

theorem tables_clear (m : Machine) (str : StreamId) :
    (m.clear (.stream str)).tables = m.tables.setObject (.stream str) none :=
  tables_stream m _ str {} {} rfl rfl rfl rfl rfl

theorem tables_setHeader (m : Machine) (str : StreamId) (used : hdr.inUse = true) :
    (m.setHeader (.stream str) hdr).tables = m.tables.setObject (.stream str)
      (some (hdr, m.streams str)) := by
  rw [tables_stream m (m.setHeader (.stream str) hdr) str hdr
    (m.streams str) rfl (update_eq_self ..).symm rfl rfl rfl, if_pos used]

theorem tables_setStream {old : Stream}
    (here : m.tables.objects (.stream str) = some (hdr, old)) (r : Stream) :
    (m.setStream str r).tables = m.tables.setObject (.stream str) (some (hdr, r)) := by
  obtain ⟨used, rfl, rfl⟩ := tables_object here
  unfold inUse at used
  rw [tables_stream m (m.setStream str r) str
    (m.headers (.stream str)) r (update_eq_self ..).symm rfl rfl rfl rfl,
    if_pos used]

theorem tables_setPipe (m : Machine) (pipe : PipeId) (r : Pipe) : (m.setPipe pipe r).tables =
      m.tables.setPipe pipe (if r.inUse then some r else none) := by
  refine Tables.ext rfl (funext fun o => ?_) rfl rfl
  by_cases here : o = pipe
  · subst here
    simp [tables, setPipe, Tables.setPipe]
  · simp [tables, setPipe, Tables.setPipe, here]

end Machine

/-! ## Nothing left behind -/

/-- The objects in use with their reference counts, the streams, the pipes, the
handle tables and the ports are exactly as they were. -/
structure Unchanged (m t : Machine) : Prop where
  objects : ∀ ref, t.inUse ref = m.inUse ref
  headers : ∀ ref, m.inUse ref = true → t.headers ref = m.headers ref
  streams : ∀ str, m.inUse (.stream str) = true →
    t.streams str = m.streams str
  pipesInUse : ∀ pipe, (t.pipes pipe).inUse = (m.pipes pipe).inUse
  pipes : ∀ pipe, (m.pipes pipe).inUse = true → t.pipes pipe = m.pipes pipe
  handles : t.handles = m.handles
  ports : t.ports = m.ports

theorem Unchanged.refl (m : Machine) : Unchanged m m :=
  ⟨fun _ => rfl, fun _ _ => rfl, fun _ _ => rfl, fun _ => rfl, fun _ _ => rfl, rfl, rfl⟩

theorem Unchanged.of_tables {m t : Machine} (same : t.tables = m.tables) : Unchanged m t := by
  have used : ∀ ref, t.inUse ref = m.inUse ref := by
    intro ref
    rw [← t.tables_isSome, same, m.tables_isSome]
  have held : ∀ ref, m.inUse ref = true →
      t.headers ref = m.headers ref ∧ t.record ref = m.record ref := by
    intro ref inUse
    simpa [tables, used ref, inUse] using congrArg (fun tables => tables.objects ref) same
  have usedPipe : ∀ pipe, (t.pipes pipe).inUse = (m.pipes pipe).inUse := by
    intro pipe
    rw [← t.tables_pipe_isSome, same, m.tables_pipe_isSome]
  have heldPipe : ∀ pipe, (m.pipes pipe).inUse = true → t.pipes pipe = m.pipes pipe := by
    intro pipe inUse
    simpa [tables, usedPipe pipe, inUse] using congrArg (fun tables => tables.pipes pipe) same
  exact ⟨used, fun ref inUse => (held ref inUse).1, fun str inUse => (held _ inUse).2, usedPipe,
    heldPipe, congrArg Tables.handles same, congrArg Tables.ports same⟩

/-! ## The pairs a call holds -/

/-- The reading end of a pipe, or the writing one. -/
def endRecord (pipe : PipeId) (read : Bool) : Stream :=
  { kind := .pipe pipe, read := read, write := !read }

/-- A pipe with the ends that are left (`true` is the reader). -/
def pipeRecord (left : Bool → Bool) : Pipe :=
  { inUse := true, readerRefs := (left true).toNat, writerRefs := (left false).toNat }

/-- Without ends the pipe is gone. -/
def pipeLeft (left : Bool → Bool) : Option Pipe :=
  if left true || left false then some (pipeRecord left) else none

/-- Pipes with two ends each. -/
structure Loan (ι : Type) where
  pipe : ι → PipeId
  ends : ι → Bool → StreamId
  birth : ι → Bool → Nat

variable {ι : Type} {loan : Loan ι}

/-- The pipes are different, and so are the ends. -/
structure Loan.Apart (loan : Loan ι) : Prop where
  pipes : ∀ one o, loan.pipe one = loan.pipe o → one = o
  ends : ∀ one o side place, loan.ends one side = loan.ends o place →
    one = o ∧ side = place

def Loan.object (loan : Loan ι) (i : ι) (side : Bool) (n : Nat) : Header × Stream :=
  ({ inUse := true, refcount := n, birth := loan.birth i side }, endRecord (loan.pipe i) side)

/-- How many references each end has, when it is in use. -/
abbrev Counts (ι : Type) := ι → Bool → Option Nat

def Counts.set [DecidableEq ι] (counts : Counts ι) (i : ι) (side : Bool) (n : Option Nat) :
    Counts ι :=
  update counts i (update (counts i) side n)

/-- What is left of a pipe. -/
def Counts.left (counts : Counts ι) (i : ι) : Option Pipe :=
  pipeLeft fun side => (counts i side).isSome

/-- The tables hold the ends with these references, and are otherwise as they were. -/
structure Lent (loan : Loan ι) (counts : Counts ι) (start now : Tables) : Prop where
  apart : loan.Apart
  ends : ∀ i side, now.objects (.stream (loan.ends i side)) =
    (counts i side).map (loan.object i side)
  pipes : ∀ i, now.pipes (loan.pipe i) = counts.left i
  objects : ∀ ref, (∀ i side, ref ≠ .stream (loan.ends i side)) →
    now.objects ref = start.objects ref
  others : ∀ pipe, (∀ i, pipe ≠ loan.pipe i) → now.pipes pipe = start.pipes pipe
  ports : now.ports = start.ports

namespace Lent

variable {counts : Counts ι} {start now t : Tables} {i : ι} {side : Bool}

/-- The references say what the tables are. -/
theorem unique (lent : Lent loan counts start now) (o : Lent loan counts start t)
    (handles : t.handles = now.handles) : t = now := by
  refine Tables.ext (funext fun ref => ?_) (funext fun pipe => ?_) handles
    (o.ports.trans lent.ports.symm)
  · by_cases mine : ∃ i side, ref = .stream (loan.ends i side)
    · obtain ⟨i, side, rfl⟩ := mine
      rw [lent.ends, o.ends]
    · have outside : ∀ i side, ref ≠ .stream (loan.ends i side) := fun i side eq =>
        mine ⟨i, side, eq⟩
      rw [lent.objects ref outside, o.objects ref outside]
  · by_cases mine : ∃ i, pipe = loan.pipe i
    · obtain ⟨i, rfl⟩ := mine
      rw [lent.pipes, o.pipes]
    · have outside : ∀ i, pipe ≠ loan.pipe i := fun i eq => mine ⟨i, eq⟩
      rw [lent.others pipe outside, o.others pipe outside]

variable [DecidableEq ι]

/-- One end changes, and its pipe with it. -/
theorem change (lent : Lent loan counts start now) (i : ι) (side : Bool) (n : Option Nat) :
    Lent loan (counts.set i side n) start
      ((now.setObject (.stream (loan.ends i side)) (n.map (loan.object i side))).setPipe
        (loan.pipe i) ((counts.set i side n).left i)) := by
  refine ⟨lent.apart, fun o place => ?_, fun o => ?_, fun ref outside => ?_,
    fun pipe outside => ?_, lent.ports⟩
  · show update now.objects _ _ _ = _
    by_cases here : o = i
    · subst here
      by_cases same : place = side
      · subst same
        simp [Counts.set]
      · have apart : loan.ends o place ≠ loan.ends o side := fun eq =>
          same (lent.apart.ends _ _ _ _ eq).2
        simp [Counts.set, same, apart, lent.ends]
    · have apart : loan.ends o place ≠ loan.ends i side := fun eq =>
        here (lent.apart.ends _ _ _ _ eq).1
      simp [Counts.set, here, apart, lent.ends]
  · show update now.pipes _ _ _ = _
    by_cases here : o = i
    · subst here
      rw [update_self]
    have apart : loan.pipe o ≠ loan.pipe i := fun eq =>
      here (lent.apart.pipes _ _ eq)
    rw [update_of_ne apart, lent.pipes]
    simp [Counts.left, Counts.set, here]
  · exact (update_of_ne (outside i side) ..).trans (lent.objects ref outside)
  · exact (update_of_ne (outside i) ..).trans (lent.others pipe outside)

/-- While an end stays, its pipe does not change. -/
theorem pipe_stays (lent : Lent loan counts start now) {old : Nat}
    (here : counts i side = some old) (n : Nat) (obj : Option (Header × Stream)) :
    (now.setObject (.stream (loan.ends i side)) obj).setPipe (loan.pipe i)
        ((counts.set i side (some n)).left i) = now.setObject (.stream (loan.ends i side)) obj := by
  have same : (counts.set i side (some n)).left i = now.pipes (loan.pipe i) := by
    rw [lent.pipes i]
    unfold Counts.left
    congr 1
    funext place
    by_cases eq : place = side
    · subst eq
      simp [Counts.set, here]
    · simp [Counts.set, eq]
  rw [same]
  exact Tables.ext rfl (update_eq_self ..) rfl rfl

end Lent

/-! ## References to the ends -/

/-- What is left of the references when one goes: at zero the end is destroyed. -/
def less (n : Nat) : Option Nat := if n = 0 then none else some n

namespace Lent

variable [DecidableEq ι] {counts : Counts ι} {start : Tables} {m : Machine} {i : ι}
  {side : Bool}

section

variable (lent : Lent loan counts start m.tables)
include lent

theorem recount {old : Nat} (here : counts i side = some old) (n : Nat) :
    Lent loan (counts.set i side (some n)) start
      (m.setHeader (.stream (loan.ends i side))
        { m.headers (.stream (loan.ends i side)) with refcount := n }).tables := by
  have present := lent.ends i side
  rw [here] at present
  obtain ⟨_, hdr, r⟩ := tables_object present
  have changed := lent.change i side (some n)
  rw [lent.pipe_stays here n] at changed
  rw [tables_setHeader _ _ (by rw [hdr]), hdr, r]
  exact changed

theorem retain {n : Nat} (here : counts i side = some n) (small : n + 1 < 2 ^ 32) :
    Lent loan (counts.set i side (some (n + 1))) start
      (m.retain (.stream (loan.ends i side))).tables := by
  have present := lent.ends i side
  rw [here] at present
  obtain ⟨_, hdr, _⟩ := tables_object present
  have raised := lent.recount here (n + 1)
  unfold Machine.retain
  rw [show (m.headers (.stream (loan.ends i side))).refcount = n by rw [hdr],
    Nat.mod_eq_of_lt small]
  exact raised

omit lent in
/-- One end of a pipe goes, and the pipe with the last one. -/
theorem tables_drop {pipe : PipeId} {side : Bool} {left : Bool → Bool}
    (here : left side = true) (r : m.pipes pipe = pipeRecord left) :
    ((m.dropEnd pipe (endRecord pipe side)).freePipeIfUnused pipe).tables =
      m.tables.setPipe pipe (pipeLeft (update left side false)) := by
  have dropped : m.dropEnd pipe (endRecord pipe side) =
      m.setPipe pipe (pipeRecord (update left side false)) := by
    unfold dropEnd
    rw [r]
    cases side with
    | true | false => simp [pipeRecord, endRecord, here]
  rw [dropped]
  generalize update left side false = rest
  unfold freePipeIfUnused
  rw [setPipe_self, if_neg (by simp [pipeRecord])]
  cases reader : rest true with
  | true =>
    have left : pipeLeft rest = some (pipeRecord rest) := by simp [pipeLeft, reader]
    rw [if_neg (by simp [pipeRecord, reader]), tables_setPipe, left]
    rfl
  | false =>
    rw [if_pos (by simp [pipeRecord, reader])]
    cases writer : rest false with
    | true =>
      have left : pipeLeft rest = some (pipeRecord rest) := by simp [pipeLeft, writer]
      rw [if_neg (by simp [pipeRecord, writer]), left]
      exact tables_setPipe ..
    | false =>
      have left : pipeLeft rest = none := by simp [pipeLeft, reader, writer]
      rw [if_pos (by simp [pipeRecord, writer]), left]
      show ((m.setPipe pipe _).setPipe pipe {}).tables = _
      rw [setPipe_setPipe, tables_setPipe]
      rfl

theorem destroy {n : Nat} (here : counts i side = some n) :
    Lent loan (counts.set i side none) start (m.destroyIoObject (loan.ends i side)).tables := by
  have present := lent.ends i side
  rw [here] at present
  obtain ⟨_, _, r⟩ := tables_object present
  have left : (counts i side).isSome = true := by rw [here]; rfl
  have piped : m.pipes (loan.pipe i) = pipeRecord fun place => (counts i place).isSome := by
    have pipes := lent.pipes i
    rw [Counts.left, pipeLeft, if_pos (by cases side <;> simp [left])] at pipes
    exact tables_pipe pipes
  have rest : pipeLeft (update (fun place => (counts i place).isSome) side false) =
      (counts.set i side none).left i := by
    congr 1
    funext place
    by_cases eq : place = side
    · subst eq
      simp [Counts.set]
    · simp [Counts.set, eq]
  have dropped := tables_drop left piped
  rw [rest] at dropped
  unfold destroyIoObject
  rw [r]
  show Lent loan _ start (((m.dropEnd _ (endRecord _ side)).freePipeIfUnused _).clear _).tables
  rw [tables_clear, dropped]
  exact lent.change ..

/-- One reference to an end goes. -/
theorem release {n : Nat} (here : counts i side = some (n + 1)) :
    Lent loan (counts.set i side (less n)) start (m.releaseStream (loan.ends i side)).tables := by
  have present := lent.ends i side
  rw [here] at present
  obtain ⟨used, hdr, _⟩ := tables_object present
  have refcount : (m.headers (.stream (loan.ends i side))).refcount = n + 1 := by
    rw [hdr]
  have lowered : Lent loan (counts.set i side (some n)) start
      (m.decrement (.stream (loan.ends i side))).tables := by
    unfold decrement
    rw [refcount]
    exact lent.recount here n
  unfold less releaseStream lower
  rw [decrement_refcount, decrement_inUse, refcount, Nat.add_sub_cancel]
  by_cases zero : n = 0
  · rw [if_pos zero, if_pos ⟨zero, used⟩]
    have there : counts.set i side (some n) i side = some n := by simp [Counts.set]
    have again : (counts.set i side (some n)).set i side none = counts.set i side none := by
      unfold Counts.set
      rw [update_self, update_idem, update_idem]
    exact again ▸ lowered.destroy there
  · rw [if_neg zero, if_neg fun last => zero last.1]
    exact lowered

end

end Lent

/-! ## Handles to the ends -/

/-- A row of a handle table with some entries filled. -/
def fill (given : List (Fd × Handle)) (row : Fd → Option Handle) : Fd → Option Handle :=
  given.foldr (fun e filled => update filled e.1 (some e.2)) row

variable {fd : Fd} {row : Fd → Option Handle}

theorem fill_other {given : List (Fd × Handle)} (o : fd ∉ given.map Prod.fst) :
    fill given row fd = row fd := by
  induction given with
  | nil => rfl
  | cons e rest ih =>
    rw [map_cons, mem_cons, not_or] at o
    show update (fill rest row) e.1 _ fd = row fd
    rw [update_of_ne o.1]
    exact ih o.2

theorem fill_filled {given : List (Fd × Handle)} (filled : fd ∈ given.map Prod.fst) :
    fill given row fd ≠ none := by
  induction given with
  | nil => cases filled
  | cons e rest ih =>
    show update (fill rest row) e.1 _ fd ≠ none
    by_cases here : fd = e.1
    · rw [here, update_self]
      exact nofun
    · rw [update_of_ne here]
      exact ih ((mem_cons.mp filled).resolve_left here)

theorem fill_last {given : List (Fd × Handle)} {handle : Handle}
    (o : fd ∉ given.map Prod.fst) :
    fill (given ++ [(fd, handle)]) row = update (fill given row) fd (some handle) := by
  induction given with
  | nil => rfl
  | cons e rest ih =>
    rw [map_cons, mem_cons, not_or] at o
    show update (fill (rest ++ _) row) e.1 _ = update (update _ _ _) fd _
    rw [ih o.2, update_comm o.1]
    rfl

/-- The entries of one handle table that a call has filled, in order; they were empty, and
the tables are otherwise as they were. -/
structure Handed (p : Process) (given : List (Fd × Handle)) (start m : Machine) :
    Prop where
  handles : m.handles =
    update start.handles p (fill given (start.handles p))
  empty : ∀ e ∈ given, start.handles p e.1 = none
  distinct : (given.map Prod.fst).Nodup

namespace Handed

variable {p : Process} {given : List (Fd × Handle)} {fd : Fd} {str : StreamId}
  {start m t : Machine}

theorem nothing (eq : m.handles = start.handles) : Handed p [] start m where
  handles := eq.trans (update_eq_self ..).symm
  empty _ mem := nomatch mem
  distinct := nodup_nil

theorem keep (handed : Handed p given start m)
    (eq : t.handles = m.handles) : Handed p given start t :=
  { handed with handles := eq.trans handed.handles }

theorem restored (handed : Handed p [] start m) : m.handles = start.handles :=
  handed.handles.trans (update_eq_self ..)

/-- One more entry is filled. -/
theorem install (handed : Handed p given start m) {obj : Ref} {granted : Nat}
    (free : m.handles p fd = none) : Handed p (given ++ [(fd, ⟨obj, granted⟩)]) start
      (m.installHandle p fd obj granted) := by
  have row : m.handles p = fill given (start.handles p) := by
    rw [handed.handles, update_self]
  have o : fd ∉ given.map Prod.fst := fun filled => fill_filled filled (row ▸ free)
  refine ⟨?_, fun e mem => ?_, ?_⟩
  · rw [installHandle_empty free, fill_last o, ← row]
    show update m.handles p _ = _
    conv_lhs => rw [handed.handles]
    exact update_idem ..
  · rcases mem_append.mp mem with old | new
    · exact handed.empty e old
    · cases mem_singleton.mp new
      exact ((fill_other o).symm.trans (congrFun row.symm fd)).trans free
  · rw [map_append]
    exact Nodup.append handed.distinct (nodup_singleton fd) (by simpa using o)

/-- The entry that was filled first is closed. -/
theorem close {handle : Handle} (handed : Handed p ((fd, handle) :: given) start m) :
    m.handles p fd = some handle ∧ Handed p given start (m.closeEntry p fd) := by
  obtain ⟨o, distinct⟩ := nodup_cons.mp handed.distinct
  have row : m.handles p = update (fill given (start.handles p)) fd (some handle) := by
    rw [handed.handles, update_self]
    rfl
  refine ⟨by rw [row, update_self], ?_,
    fun e mem => handed.empty e (mem_cons_of_mem _ mem), distinct⟩
  have blank : fill given (start.handles p) fd = none :=
    (fill_other o).trans (handed.empty _ mem_cons_self)
  rw [(m.closeEntry_keeps p fd).2, row, update_idem, ← blank,
    update_eq_self, handed.handles, update_idem]

end Handed

/-! ## What a call holds -/

/-- The ends a call holds, the entries it has given to them, and that the slots were free. -/
structure Holding (loan : Loan ι) (counts : Counts ι) (p : Process)
    (given : List (Fd × Handle)) (start m : Machine) : Prop where
  free : Lent loan (fun _ _ => none) start.tables start.tables
  lent : Lent loan counts start.tables m.tables
  handed : Handed p given start m

namespace Holding

variable {counts : Counts ι} {p : Process} {given : List (Fd × Handle)}
  {start m t : Machine}

/-- When every end is gone and every entry closed, nothing is left behind. -/
theorem unchanged (holding : Holding loan counts p [] start m)
    (gone : ∀ i side, counts i side = none) : Unchanged start m := by
  have none : counts = fun _ _ => none := funext fun i => funext (gone i)
  have lent := holding.lent
  rw [none] at lent
  exact Unchanged.of_tables (holding.free.unique lent holding.handed.restored)

variable [DecidableEq ι]

variable {n : Nat}

section

variable (holding : Holding loan counts p given start m) (i : ι) (side : Bool)
include holding

theorem release (here : counts i side = some (n + 1)) :
    Holding loan (counts.set i side (less n)) p given start
      (m.releaseStream (loan.ends i side)) where
  free := holding.free
  lent := holding.lent.release here
  handed := holding.handed.keep (releaseStream_keeps _).handles

theorem retain (here : counts i side = some n) (small : n + 1 < 2 ^ 32) :
    Holding loan (counts.set i side (some (n + 1))) p given start
      (m.retain (.stream (loan.ends i side))) where
  free := holding.free
  lent := holding.lent.retain here small
  handed := holding.handed.keep rfl

theorem install {read write : Bool}
    (found : m.allocateEnd p (loan.ends i side) read write = some (fd, t))
    (here : counts i side = some n) (small : n + 1 < 2 ^ 32) :
    Holding loan (counts.set i side (some (n + 1))) p
      (given ++ [(fd, ⟨.stream (loan.ends i side), objectAccessForOpenFlags read write⟩)]) start
      t := by
  obtain ⟨empty, rfl⟩ := allocateFd_some found
  refine ⟨holding.free, ?_, holding.handed.install empty⟩
  have raised := holding.lent.retain here small
  rw [installHandle_empty empty]
  exact { raised with }

end

theorem close {i : ι} {side : Bool} {granted : Nat} (holding : Holding loan counts p
      ((fd, ⟨.stream (loan.ends i side), granted⟩) :: given) start m)
    (here : counts i side = some (n + 1)) :
    Holding loan (counts.set i side (less n)) p given start (m.closeEntry p fd) := by
  obtain ⟨held, closed⟩ := holding.handed.close
  refine ⟨holding.free, ?_, closed⟩
  have emptied : Lent loan counts start.tables (m.setHandle p fd none).tables :=
    { holding.lent with }
  have released := emptied.release here
  unfold closeEntry
  rw [held]
  exact released

end Holding

end SavanXP.Objects
