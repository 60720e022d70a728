import SavanXP.Process.Objects

/-!
# What a release leaves alone

Releasing an object changes headers, and through the destruction of streams and
ports also pipes and other objects; the handle tables, the address spaces and the
lives of the processes stay as they are.
-/

namespace SavanXP.Objects

open Function Machine

/-- The tables of the processes are as before. -/
structure Machine.Keeps (m t : Machine) : Prop where
  handles : t.handles = m.handles
  views : t.views = m.views
  life : t.life = m.life

namespace Machine

variable {m : Machine}

theorem Keeps.refl (m : Machine) : m.Keeps m := ⟨rfl, rfl, rfl⟩

theorem Keeps.trans {middle t : Machine} (first : m.Keeps middle)
    (second : middle.Keeps t) : m.Keeps t where
  handles := second.handles.trans first.handles
  views := second.views.trans first.views
  life := second.life.trans first.life

section

variable (ref : Ref)

@[simp] theorem setHeader_self (header : Header) :
    (m.setHeader ref header).headers ref = header :=
  update_self ..

theorem setHeader_of_ne {ref other : Ref} (ne : other ≠ ref) (header : Header) :
    (m.setHeader ref header).headers other = m.headers other :=
  update_of_ne ne ..

@[simp] theorem setPipe_self (pipe : PipeId) (r : Pipe) :
    (m.setPipe pipe r).pipes pipe = r :=
  update_self ..

@[simp] theorem setPipe_setPipe (pipe : PipeId) (old r : Pipe) :
    (m.setPipe pipe old).setPipe pipe r = m.setPipe pipe r := by
  unfold setPipe
  rw [update_idem]

@[simp] theorem decrement_refcount :
    ((m.decrement ref).headers ref).refcount = (m.headers ref).refcount - 1 := by
  unfold decrement
  rw [setHeader_self]

@[simp] theorem decrement_inUse : (m.decrement ref).inUse ref = m.inUse ref := by
  unfold decrement inUse
  rw [setHeader_self]

theorem wipe_keeps : m.Keeps (m.wipe ref) := by
  rcases ref with kind | str | port
  · cases kind <;> exact ⟨rfl, rfl, rfl⟩
  all_goals exact ⟨rfl, rfl, rfl⟩

@[simp] theorem wipe_headers : (m.wipe ref).headers = m.headers := by
  rcases ref with kind | str | port
  · cases kind <;> rfl
  · rfl
  · rfl

@[simp] theorem wipe_pipes : (m.wipe ref).pipes = m.pipes := by
  rcases ref with kind | str | port
  · cases kind <;> rfl
  · rfl
  · rfl

theorem wipe_ports {ref : Ref} {port : PortId} (other : ref ≠ .port port) :
    (m.wipe ref).ports port = m.ports port := by
  rcases ref with kind | str | ne
  · cases kind <;> rfl
  · rfl
  · exact update_of_ne (fun eq => other (congrArg Ref.port eq.symm)) ..

@[simp] theorem clear_pipes : (m.clear ref).pipes = m.pipes := wipe_pipes ref

end

/-! ## Frames -/

/-- A relation that does not see the objects of some kinds, the pipes and the log of births. -/
structure Frame (kept : Machine → Machine → Prop) (hidden : Ref → Prop) : Prop where
  refl : ∀ m, kept m m
  trans : ∀ {m middle t}, kept m middle → kept middle t → kept m t
  header : ∀ m ref header, hidden ref → kept m (m.setHeader ref header)
  wipe : ∀ m ref, hidden ref → kept m (m.wipe ref)
  log : ∀ m births, kept m { m with births := births }
  pipe : ∀ m pipe r, kept m (m.setPipe pipe r)
  plain : ∀ kind k, hidden (.plain kind k)

namespace Frame

variable {kept : Machine → Machine → Prop} {hidden : Ref → Prop} {ref : Ref}

section

variable (frame : Frame kept hidden)
include frame

theorem create (hides : hidden ref) : kept m (m.create ref) :=
  frame.trans (frame.trans (frame.wipe m ref hides) (frame.header _ ref _ hides))
    (frame.log _ (m.births + 1))

theorem clear (hides : hidden ref) : kept m (m.clear ref) :=
  frame.trans (frame.wipe m ref hides) (frame.header _ ref _ hides)

theorem lower (hides : hidden ref) {destroy : Machine → Machine}
    (keeps : ∀ lowered, kept lowered (destroy lowered)) : kept m (m.lower ref destroy) := by
  have first : kept m (m.decrement ref) := frame.header m ref _ hides
  unfold Machine.lower
  split
  · exact frame.trans first (keeps _)
  · exact first

theorem releasePlain (kind : Kind) (k : Nat) : kept m (m.releasePlain kind k) :=
  frame.lower (frame.plain kind k) fun _ => frame.clear (frame.plain kind k)

theorem drainPipeHandles (pipe : PipeId) (queue : List Passed) :
    kept m (drainPipeHandles pipe queue m) := by
  induction queue generalizing m with
  | nil => exact frame.refl m
  | cons passed rest ih =>
    exact frame.trans (frame.trans (frame.pipe m pipe _) (frame.releasePlain _ _)) ih

theorem freePipeIfUnused (pipe : PipeId) : kept m (m.freePipeIfUnused pipe) := by
  unfold Machine.freePipeIfUnused
  split
  · exact frame.refl m
  split
  · have drained : kept m (Machine.drainPipeHandles pipe (m.pipes pipe).handles m) :=
      frame.drainPipeHandles _ _
    split
    · exact frame.trans drained (frame.pipe _ _ _)
    · exact drained
  · exact frame.refl m

theorem releaseStream {str : StreamId} (hides : hidden (.stream str)) :
    kept m (m.releaseStream str) := by
  apply frame.lower hides
  intro lowered
  unfold destroyIoObject
  split
  · exact frame.trans (frame.trans (frame.pipe lowered _ _) (frame.freePipeIfUnused _))
      (frame.clear hides)
  · exact frame.clear hides

end

end Frame

theorem keeps_frame : Frame Keeps fun _ => True where
  refl := Keeps.refl
  trans := Keeps.trans
  header _ _ _ _ := ⟨rfl, rfl, rfl⟩
  wipe _ ref _ := wipe_keeps ref
  log _ _ := ⟨rfl, rfl, rfl⟩
  pipe _ _ _ := ⟨rfl, rfl, rfl⟩
  plain _ _ := trivial

theorem clear_keeps (ref : Ref) : m.Keeps (m.clear ref) := keeps_frame.clear trivial

theorem releasePlain_keeps (kind : Kind) (k : Nat) : m.Keeps (m.releasePlain kind k) :=
  keeps_frame.releasePlain kind k

theorem releaseStream_keeps (str : StreamId) : m.Keeps (m.releaseStream str) :=
  keeps_frame.releaseStream trivial

theorem drainPort_keeps (port : PortId) (pending : List Connection) :
    m.Keeps (drainPort port pending m) := by
  induction pending generalizing m with
  | nil => exact Keeps.refl m
  | cons conn rest ih =>
    have dequeued : m.Keeps
        (m.setPort port { m.ports port with pending := rest }) :=
      ⟨rfl, rfl, rfl⟩
    exact ((dequeued.trans (releaseStream_keeps _)).trans (releaseStream_keeps _)).trans ih

theorem release_keeps (ref : Ref) : m.Keeps (m.release ref) := by
  cases ref with
  | plain kind k => exact releasePlain_keeps kind k
  | stream str => exact releaseStream_keeps str
  | port port =>
    exact keeps_frame.lower trivial fun _ => (drainPort_keeps port _).trans (clear_keeps _)

/-! ## Pipes and ports -/

@[simp] theorem releasePlain_pipes (kind : Kind) (k : Nat) :
    (m.releasePlain kind k).pipes = m.pipes := by
  unfold releasePlain lower
  split
  · exact clear_pipes _
  · rfl

/-- Draining leaves the queue of that pipe empty and every other pipe as it was. -/
theorem drainPipeHandles_pipes {pipe : PipeId} {queue : List Passed}
    (here : (m.pipes pipe).handles = queue) :
    (drainPipeHandles pipe queue m).pipes =
      update m.pipes pipe { m.pipes pipe with handles := [] } := by
  induction queue generalizing m with
  | nil =>
    have same : { m.pipes pipe with handles := [] } = m.pipes pipe := by
      rw [← here]
    rw [same, update_eq_self]
    rfl
  | cons passed rest ih =>
    have dequeued : ((m.setPipe pipe { m.pipes pipe with handles := rest }).releasePlain
        passed.kind passed.slot).pipes =
          update m.pipes pipe { m.pipes pipe with handles := rest } :=
      releasePlain_pipes _ _
    unfold drainPipeHandles
    rw [ih (by rw [dequeued, update_self]), dequeued, update_idem, update_self]

/-- The objects other than ports keep the ports and their headers. -/
structure KeepsPorts (m t : Machine) : Prop where
  ports : t.ports = m.ports
  headers : ∀ port, t.headers (.port port) = m.headers (.port port)

theorem KeepsPorts.refl (m : Machine) : m.KeepsPorts m := ⟨rfl, fun _ => rfl⟩

theorem KeepsPorts.trans {middle t : Machine} (first : m.KeepsPorts middle)
    (second : middle.KeepsPorts t) : m.KeepsPorts t where
  ports := second.ports.trans first.ports
  headers port := (second.headers port).trans (first.headers port)

theorem keepsPorts_frame : Frame KeepsPorts fun ref => ∀ port, Ref.port port ≠ ref where
  refl := KeepsPorts.refl
  trans := KeepsPorts.trans
  header _ _ header other := ⟨rfl, fun port => setHeader_of_ne (other port) header⟩
  wipe _ ref other :=
    ⟨funext fun port => wipe_ports fun eq => other port eq.symm, fun _ => by rw [wipe_headers]⟩
  log _ _ := ⟨rfl, fun _ => rfl⟩
  pipe _ _ _ := ⟨rfl, fun _ => rfl⟩
  plain _ _ _ := nofun

theorem releaseStream_keepsPorts (str : StreamId) : m.KeepsPorts (m.releaseStream str) :=
  keepsPorts_frame.releaseStream fun _ => nofun

/-! ## Handle tables and new slots -/

section Tables

open Library

variable {p : Process} {ref : Ref}

theorem closeEntry_keeps (p : Process) (fd : Fd) : (m.closeEntry p fd).life = m.life ∧
      (m.closeEntry p fd).handles = update m.handles p (update (m.handles p) fd none) := by
  unfold closeEntry
  split
  next e _ =>
    have keeps : (m.setHandle p fd none).Keeps
        ((m.setHandle p fd none).release e.object) := release_keeps _
    exact ⟨keeps.life, keeps.handles⟩
  next empty =>
    refine ⟨rfl, ?_⟩
    rw [← empty, update_eq_self, update_eq_self]

variable {fd : Fd}

theorem allocateFdSlot_some (found : m.allocateFdSlot p = some fd) : m.handles p fd = none := by
  simpa using freeEntry_some found

theorem closeEntry_empty (empty : m.handles p fd = none) : m.closeEntry p fd = m := by
  unfold closeEntry
  rw [empty]

variable {t : Machine}

theorem allocateFd_some {granted : Nat} (found : m.allocateFd p ref granted = some (fd, t)) :
    m.handles p fd = none ∧ t = m.installHandle p fd ref granted := by
  unfold allocateFd at found
  split at found
  next free here =>
    cases found
    exact ⟨allocateFdSlot_some here, rfl⟩
  · cases found

theorem allocateIoObject_some {str : StreamId} (found : m.allocateIoObject = some (str, t)) :
    m.inUse (.stream str) = false ∧ t = m.create (.stream str) := by
  unfold allocateIoObject at found
  split at found
  next free here =>
    cases found
    exact ⟨freeEntry_some here, rfl⟩
  · cases found

theorem allocatePipe_some {pipe : PipeId} (found : m.allocatePipe = some (pipe, t)) :
    (m.pipes pipe).inUse = false ∧ t = m.setPipe pipe { inUse := true } := by
  unfold allocatePipe at found
  split at found
  next free here =>
    cases found
    exact ⟨freeEntry_some here, rfl⟩
  · cases found

theorem installHandle_empty (empty : m.handles p fd = none) (granted : Nat) :
    m.installHandle p fd ref granted = (m.retain ref).setHandle p fd (some ⟨ref, granted⟩) := by
  unfold installHandle
  rw [closeEntry_empty empty]

end Tables

end Machine

end SavanXP.Objects
