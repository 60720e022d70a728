import SavanXP.Library.Preorder

/-!
# The order of the initializers of opened libraries

`dlopen` gives a library the first free slot and then walks its DT_NEEDED list.  A name
that no image has is loaded on the spot, with all that it needs, into the slots that follow.
The initializers run from the newest slot down.  Dependencies come first as long as of two
images that need a third one, the first loads the other before it comes to the third.
-/

namespace SavanXP.Loader

open SavanXP.Library List Function Relation

abbrev Name : Type := List Char

/-- What the dynamic section of a file says, with the addresses where its code is mapped. -/
structure File where
  needed : List Name
  init : Option UInt64 := none
  initArray : List UInt64 := []

structure Library extends File where
  soname : Name
  path : Name
  neededDone : Nat := 0

structure State where
  count : Nat
  libs : Nat → Library

/-- The size of the table, the files, whether one can be opened and mapped, and whether the
relocations of an image can be applied. -/
structure World where
  maxLibraries : Nat
  file : Name → File
  places : State → Name → Bool
  relocates : State → Nat → Bool

/-- The name after the last slash, as far as it fits. -/
def sonameOf (path : Name) : Name := (path.reverse.takeWhile (· ≠ '/')).reverse.take 95

def fullPath (need : Name) : Name :=
  (if need.head? = some '/' then need else "/lib/".toList ++ need).take 127

def State.publish (s : State) (path : Name) (file : File) : State where
  count := s.count + 1
  libs := update s.libs s.count
    { file with soname := sonameOf path, path := path.take 127 }

def State.setDone (s : State) (k done : Nat) : State where
  count := s.count
  libs := update s.libs k { s.libs k with neededDone := done }

/-- One more need of an image is looked at. -/
def State.advance (s : State) (k : Nat) : State := s.setDone k ((s.libs k).neededDone + 1)

def loadedSlotNamed (s : State) (soname : Name) : Option Nat :=
  (range s.count).find? fun k => (s.libs k).soname = soname

def loadedSlotAt (s : State) (path : Name) : Option Nat :=
  (range s.count).find? fun k => 0 < k ∧ (s.libs k).path = path

/-- A load says whether it has failed. -/
abbrev Load : Type := State → Name → Bool × State

/-- The needs of the image in slot `work` that are left.  A missing one does not end the walk. -/
def walkNeeded (load : Load) (work : Nat) : Nat → Bool × State → Bool × State
  | 0, walked => walked
  | rounds + 1, (failed, s) =>
    match (s.libs work).needed[(s.libs work).neededDone]? with
    | none => (failed, s)
    | some need =>
      let s := s.advance work
      if (loadedSlotNamed s need).isSome then walkNeeded load work rounds (failed, s)
      else
        let loaded := load s (fullPath need)
        walkNeeded load work rounds (failed || loaded.1, loaded.2)

def loadNeededChain (load : Load) : Nat → Nat → Bool × State → Bool × State
  | 0, _, walked => walked
  | rounds + 1, work, (failed, s) =>
    if work < s.count then
      loadNeededChain load rounds (work + 1)
        (walkNeeded load work (s.libs work).needed.length (failed, s))
    else (failed, s)

/-- `ldso_load`, with at most `slots` loads inside each other. -/
def load (world : World) : Nat → Load
  | 0, s, _ => (true, s)
  | slots + 1, s, path =>
    if world.maxLibraries ≤ s.count then (true, s)
    else if world.places s path then
      let walked := loadNeededChain (load world slots) world.maxLibraries s.count
        (false, s.publish path (world.file path))
      (walked.1 || !world.relocates walked.2 s.count, walked.2)
    else (true, s)

def Library.initializers (library : Library) : List UInt64 :=
  library.init.toList ++ library.initArray.filter fun e => e ≠ 0 ∧ e ≠ -1

/-- The initializers of some images, one image after the other. -/
def runInitializers (s : State) (slots : List Nat) : List (Nat × List UInt64) :=
  slots.map fun k => (k, (s.libs k).initializers)

def newSlots (s : State) (start : Nat) : List Nat := range' start (s.count - start)

def libraryPath (path : Name) : Name := if '/' ∈ path then path else "/lib/".toList ++ path

/-- The slot of the handle, the table and the calls of initializers. -/
def dlopen (world : World) (s : State) (path : Option Name) (noLoad : Bool) :
    Option Nat × State × List (Nat × List UInt64) :=
  match path with
  | none => (if s.count = 0 then none else some 0, s, [])
  | some path =>
    let full := libraryPath path
    if 127 < full.length then (none, s, [])
    else
      match loadedSlotAt s full with
      | some k => (some k, s, [])
      | none =>
        if noLoad then (none, s, [])
        else
          match load world world.maxLibraries s full with
          | (true, t) => (none, { t with count := s.count }, [])
          | (false, t) =>
            (some s.count, t, runInitializers t (newSlots t s.count).reverse)

/-! ## The depth of the loads -/

variable {work : Nat} {s t : State}

/-- A load forgets no image, and another one that may go deeper does the same on tables of at
least `bound` images. -/
structure Deep (bound : Nat) (deeper load : Load) : Prop where
  same : ∀ s path, bound ≤ s.count → deeper s path = load s path
  grows : ∀ s path, s.count ≤ (load s path).2.count

namespace Deep

variable {bound : Nat} {deeper load : Load} (deep : Deep bound deeper load) (rounds : Nat)
  (walked : Bool × State)
include deep

theorem walkNeeded (work : Nat) : (bound ≤ walked.2.count →
      walkNeeded deeper work rounds walked = walkNeeded load work rounds walked) ∧
    walked.2.count ≤ (walkNeeded load work rounds walked).2.count := by
  induction rounds generalizing walked with
  | zero => exact ⟨fun _ => rfl, le_rfl⟩
  | succ rounds ih =>
    obtain ⟨failed, s⟩ := walked
    unfold walkNeeded
    split
    · exact ⟨fun _ => rfl, le_rfl⟩
    next need _ =>
    dsimp only
    split
    · exact ih (failed, s.advance work)
    have more := deep.grows (s.advance work) (fullPath need)
    obtain ⟨same, grows⟩ := ih (failed || _, (load (s.advance work) (fullPath need)).2)
    refine ⟨fun large => ?_, more.trans grows⟩
    rw [deep.same (s.advance work) _ large]
    exact same (large.trans more)

theorem loadNeededChain (work : Nat) : (bound ≤ walked.2.count →
      loadNeededChain deeper rounds work walked = loadNeededChain load rounds work walked) ∧
    walked.2.count ≤ (loadNeededChain load rounds work walked).2.count := by
  induction rounds generalizing work walked with
  | zero => exact ⟨fun _ => rfl, le_rfl⟩
  | succ rounds ih =>
    obtain ⟨failed, s⟩ := walked
    unfold loadNeededChain
    split
    · obtain ⟨same, more⟩ := deep.walkNeeded (s.libs work).needed.length (failed, s) work
      refine ⟨fun large => ?_, more.trans (ih _ _).2⟩
      rw [same large]
      exact (ih _ _).1 (large.trans more)
    · exact ⟨fun _ => rfl, le_rfl⟩

end Deep

/-- Loads as deep as slots are free are deep enough. -/
theorem load_deep (world : World) (slots : Nat) :
    Deep (world.maxLibraries - slots) (load world (slots + 1)) (load world slots) := by
  induction slots with
  | zero => exact ⟨fun _ _ full => if_pos full, fun _ _ => le_rfl⟩
  | succ slots ih =>
    refine ⟨fun s path large => ?_, fun s path => ?_⟩
    · rw [load, load]
      split
      · rfl
      split
      · rw [(ih.loadNeededChain ..).1 (show _ ≤ s.count + 1 by omega)]
      · rfl
    · unfold load
      split
      · exact le_rfl
      split
      · exact (Nat.le_succ _).trans (ih.loadNeededChain _ (false, s.publish ..) _).2
      · exact le_rfl

/-! ## The images of a table -/

def State.names (s : State) : List Name := (range s.count).map fun k => (s.libs k).soname

theorem loadedSlotNamed_isSome {need : Name} :
    (loadedSlotNamed s need).isSome ↔ need ∈ s.names := by
  simp [loadedSlotNamed, State.names]

theorem names_setDone (s : State) (k done : Nat) : (s.setDone k done).names = s.names := by
  refine map_congr_left fun other _ => ?_
  by_cases same : other = k <;> simp [State.setDone, same]

theorem names_publish (s : State) (path : Name) (file : File) :
    (s.publish path file).names = s.names ++ [sonameOf path] := by
  have kept : ∀ k ∈ range s.count, ((s.publish path file).libs k).soname = (s.libs k).soname :=
    fun k inside => by simp [State.publish, (mem_range.mp inside).ne]
  rw [State.names, State.names, State.publish, range_succ, map_append, ← map_congr_left kept]
  simp [State.publish]

/-- The images of `s` stay, and behind them stand new ones whose needs were all looked at. -/
structure Grown (needs : Name → List Name) (old : List Name) (s t : State) (block : List Name) :
    Prop where
  names : t.names = s.names ++ block
  kept : ∀ k < s.count, t.libs k = s.libs k
  needed : ∀ k, s.count ≤ k → k < t.count →
    (t.libs k).needed.filter (· ∉ old) = needs (t.libs k).soname
  done : ∀ k, s.count ≤ k → k < t.count → (t.libs k).neededDone = (t.libs k).needed.length

theorem Grown.count {needs : Name → List Name} {old block : List Name}
    (grown : Grown needs old s t block) : t.count = s.count + block.length := by
  simpa [State.names] using congrArg length grown.names

/-- A DT_NEEDED name is a basename, and it fits the field for it. -/
def Basename (need : Name) : Prop := '/' ∉ need ∧ need.length ≤ 95

theorem Basename.soname {need : Name} (basename : Basename need) :
    sonameOf (fullPath need) = need := by
  obtain ⟨plain, short⟩ := basename
  have first : need.head? ≠ some '/' := fun slash => plain (mem_of_mem_head? slash)
  have fits : ("/lib/".toList ++ need).length ≤ 127 := by simp; omega
  rw [sonameOf, fullPath, if_neg first, take_of_length_le fits, reverse_append,
    takeWhile_append_of_pos fun c inside => by
      simpa using ne_of_mem_of_not_mem (mem_reverse.mp inside) plain]
  simp [take_of_length_le short]

theorem walkNeeded_failed {load : Load} {rounds : Nat} {walked : Bool × State}
    (clean : (walkNeeded load work rounds walked).1 = false) : walked.1 = false := by
  induction rounds generalizing walked with
  | zero => exact clean
  | succ rounds ih =>
    obtain ⟨failed, s⟩ := walked
    unfold walkNeeded at clean
    split at clean
    · exact clean
    dsimp only at clean
    split at clean
    · exact @ih (failed, s.advance work) clean
    · exact (Bool.or_eq_false_iff.mp (ih clean)).1

theorem loadNeededChain_failed {load : Load} {rounds : Nat} {walked : Bool × State}
    (clean : (loadNeededChain load rounds work walked).1 = false) : walked.1 = false := by
  induction rounds generalizing work walked with
  | zero => exact clean
  | succ rounds ih =>
    unfold loadNeededChain at clean
    split at clean
    · exact walkNeeded_failed (ih clean)
    · exact clean

/-- Images whose needs were all looked at are passed over. -/
theorem loadNeededChain_done (load : Load) (rounds : Nat) {failed : Bool}
    (done : ∀ k, work ≤ k → k < s.count → (s.libs k).neededDone = (s.libs k).needed.length) :
    loadNeededChain load rounds work (failed, s) = (failed, s) := by
  induction rounds generalizing work with
  | zero => rfl
  | succ rounds ih =>
    unfold loadNeededChain
    split
    · next inside =>
      have idle : walkNeeded load work (s.libs work).needed.length (failed, s) = (failed, s) := by
        cases length : (s.libs work).needed.length with
        | zero => rfl
        | succ rest =>
          rw [walkNeeded, getElem?_eq_none (done work le_rfl inside).ge]
      rw [idle]
      exact ih fun k above => done k (Nat.le_of_succ_le above)
    · rfl

section Walk

variable {needs : Name → List Name} {old new : List Name} {root : Name}

/-- A load lists what a walk of the dependency graph lists. -/
def Brings (needs : Name → List Name) (old : List Name) (root : Name) (load : Load) : Prop :=
  ∀ s t new need, s.names = old ++ new → root ∈ new → need ∉ s.names → Basename need →
    load s (fullPath need) = (false, t) →
    ∃ below, Walks needs (new ++ [need]) (needs need) below ∧ Grown needs old s t (need :: below)

theorem walkNeeded_walks {load : Load} (brings : Brings needs old root load) {rounds : Nat}
    {failed : Bool} {front left : List Name} (inside : work < s.count)
    (names : s.names = old ++ new) (opened : root ∈ new) (basenames : ∀ need ∈ left, Basename need)
    (list : (s.libs work).needed = front ++ left) (done : (s.libs work).neededDone = front.length)
    (enough : left.length ≤ rounds)
    (walked : walkNeeded load work rounds (failed, s) = (false, t)) :
    ∃ block, Walks needs new (left.filter (· ∉ old)) block ∧
      Grown needs old (s.setDone work (s.libs work).needed.length) t block := by
  induction left generalizing s new front rounds failed with
  | nil =>
    have last : (s.libs work).neededDone = (s.libs work).needed.length := by simp [list, done]
    have same : s.setDone work (s.libs work).needed.length = s := by
      rw [← last]
      exact congrArg (State.mk s.count) (update_eq_self ..)
    obtain ⟨_, rfl⟩ : failed = false ∧ s = t := by
      cases rounds with
      | zero => exact Prod.mk.inj walked
      | succ rounds =>
        rw [walkNeeded, getElem?_eq_none last.ge] at walked
        exact Prod.mk.inj walked
    rw [same]
    exact ⟨[], .nil _, (append_nil _).symm, fun _ _ => rfl, fun _ above below => by omega,
      fun _ above below => by omega⟩
  | cons need left ih =>
    obtain ⟨rounds, rfl⟩ := Nat.exists_eq_add_of_le'
      (Nat.lt_of_lt_of_le (Nat.zero_lt_succ _) enough)
    obtain ⟨basename, basenames⟩ := forall_mem_cons.mp basenames
    rw [walkNeeded, list, done, getElem?_append_right le_rfl, Nat.sub_self] at walked
    dsimp only [getElem?_cons_zero] at walked
    have here : (s.advance work).libs work =
        { s.libs work with neededDone := front.length + 1 } := by
      rw [State.advance, done]
      exact update_self ..
    have names' : (s.advance work).names = old ++ new := (names_setDone ..).trans names
    have last (m : State) (kept : m.libs work = (s.advance work).libs work) :
        (m.libs work).needed = front ++ [need] ++ left ∧
          (m.libs work).neededDone = (front ++ [need]).length := by
      simp [kept, here, list]
    have again (len : Nat) : (s.advance work).setDone work len = s.setDone work len := by
      simp [State.advance, State.setDone]
    split at walked
    · next known =>
      obtain ⟨listed, looked⟩ := last _ rfl
      obtain ⟨block, walk, grown⟩ := ih (s := s.advance work) inside names' opened basenames
        listed looked (Nat.le_of_succ_le_succ enough) walked
      rw [again, here] at grown
      refine ⟨block, ?_, grown⟩
      rw [loadedSlotNamed_isSome, names', mem_append] at known
      by_cases isOld : need ∈ old
      · simpa [isOld] using walk
      · simpa [isOld] using walk.skip (known.resolve_left isOld)
    · next unknown =>
      rw [loadedSlotNamed_isSome] at unknown
      cases res : load (s.advance work) (fullPath need) with
      | mk lost middle =>
      rw [res] at walked
      obtain rfl : lost = false :=
        (Bool.or_eq_false_iff.mp (walkNeeded_failed (congrArg Prod.fst walked))).2
      obtain ⟨below, down, part⟩ := brings _ middle new need names' opened unknown basename res
      have kept := part.kept work inside
      obtain ⟨listed, looked⟩ := last _ kept
      have named : middle.names = old ++ (new ++ need :: below) := by
        rw [part.names, names', append_assoc]
      have more : s.count + (below.length + 1) = middle.count := part.count.symm
      obtain ⟨block, onward, grown⟩ := ih (by omega) named (mem_append_left _ opened) basenames
        listed looked (Nat.le_of_succ_le_succ enough) walked
      have isNew : need ∉ old ∧ need ∉ new := by simpa [names'] using unknown
      have before (k : Nat) (above : s.count ≤ k) (early : k < middle.count) :
          t.libs k = middle.libs k :=
        (grown.kept k early).trans (update_of_ne (by omega) ..)
      refine ⟨need :: below ++ block, ?_, ?_, fun k small => ?_, fun k above small => ?_,
        fun k above small => ?_⟩
      · simpa [isNew.1] using Walks.visit isNew.2 down onward
      · rw [grown.names, names_setDone, names_setDone, part.names, State.advance, names_setDone,
          append_assoc]
      · rw [grown.kept k (Nat.lt_of_lt_of_le small (more ▸ Nat.le_add_right ..))]
        by_cases same : k = work
        · simp [same, State.setDone, kept, here]
        · simp [same, State.setDone, part.kept k small, State.advance]
      · by_cases early : k < middle.count
        · rw [before k above early]
          exact part.needed k above early
        · exact grown.needed k (Nat.le_of_not_lt early) small
      · by_cases early : k < middle.count
        · rw [before k above early]
          exact part.done k above early
        · exact grown.done k (Nat.le_of_not_lt early) small

theorem load_walks {world : World} {slots : Nat} {path : Name}
    (brings : Brings needs old root (load world slots))
    (basenames : ∀ need ∈ (world.file path).needed, Basename need) (names : s.names = old ++ new)
    (opened : root ∈ new ++ [sonameOf path])
    (needed : (world.file path).needed.filter (· ∉ old) = needs (sonameOf path))
    (loaded : load world (slots + 1) s path = (false, t)) :
    ∃ below, Walks needs (new ++ [sonameOf path]) (needs (sonameOf path)) below ∧
      Grown needs old s t (sonameOf path :: below) := by
  unfold load at loaded
  split at loaded
  · cases loaded
  next room =>
  split at loaded
  · obtain ⟨rounds, size⟩ := Nat.exists_eq_add_one_of_ne_zero (by omega : world.maxLibraries ≠ 0)
    have last : (s.publish path (world.file path)).libs s.count =
        { world.file path with soname := sonameOf path, path := path.take 127 } := update_self ..
    have here : s.count < (s.publish path (world.file path)).count := Nat.lt_succ_self _
    rw [size, loadNeededChain, if_pos here] at loaded
    cases res : walkNeeded (load world slots) s.count
      ((s.publish path (world.file path)).libs s.count).needed.length
      (false, s.publish path (world.file path)) with
    | mk lost middle =>
    rw [res] at loaded
    obtain ⟨clean, rfl⟩ := Prod.mk.inj loaded
    obtain rfl : lost = false := loadNeededChain_failed (Bool.or_eq_false_iff.mp clean).1
    obtain ⟨block, walk, grown⟩ := walkNeeded_walks brings (s := s.publish path _) here
      (by rw [names_publish, names, append_assoc]) opened (by rwa [last]) (nil_append _).symm
      (by rw [last]; rfl) le_rfl res
    have passed : loadNeededChain (load world slots) rounds (s.count + 1) (false, middle) =
      (false, middle) := loadNeededChain_done _ _ grown.done
    rw [passed]
    rw [last] at walk grown
    have same : middle.libs s.count = _ := (grown.kept s.count here).trans (update_self ..)
    refine ⟨block, needed ▸ walk, ?_, fun k small => ?_, fun k above small => ?_,
      fun k above small => ?_⟩
    · rw [grown.names, names_setDone, names_publish, append_assoc]
      rfl
    · rw [grown.kept k (Nat.lt_succ_of_lt small)]
      exact (update_of_ne small.ne ..).trans (update_of_ne small.ne ..)
    · rcases above.eq_or_lt with rfl | later
      · rw [same, last]
        exact needed
      · exact grown.needed k later small
    · rcases above.eq_or_lt with rfl | later
      · rw [same, last]
      · exact grown.done k later small
  · cases loaded

end Walk

/-- The dependency graph of an opened file: what stands on the DT_NEEDED lists and has no
image yet. -/
def World.needs (world : World) (s : State) (full name : Name) : List Name :=
  (world.file (if name = sonameOf full then full else fullPath name)).needed.filter (· ∉ s.names)

theorem load_brings {world : World} (basenames : ∀ path, ∀ need ∈ (world.file path).needed,
    Basename need) (state : State) (full : Name) (slots : Nat) :
    Brings (world.needs state full) state.names (sonameOf full) (load world slots) := by
  induction slots with
  | zero => exact fun _ _ _ _ _ _ _ _ loaded => by cases loaded
  | succ slots ih =>
    intro s t new need names opened unknown basename loaded
    have other : need ≠ sonameOf full := by
      rintro rfl
      exact unknown (names ▸ mem_append_right _ opened)
    have walks := load_walks ih (basenames _) names (mem_append_left _ opened)
      (by rw [basename.soname, World.needs, if_neg other]) loaded
    rwa [basename.soname] at walks

/-! ## The order of the calls -/

theorem mem_newSlots {start k : Nat} : k ∈ newSlots s start ↔ start ≤ k ∧ k < s.count := by
  rw [newSlots, mem_range'_1]
  omega

/-- A name on the list of `image` is that of a new image. -/
def NeedsNew (s : State) (start image dep : Nat) : Prop :=
  start ≤ dep ∧ ∃ need ∈ (s.libs image).needed, loadedSlotNamed s need = some dep

instance (s : State) (start image dep : Nat) : Decidable (NeedsNew s start image dep) :=
  inferInstanceAs (Decidable (_ ∧ ∃ need ∈ _, _))

theorem NeedsNew.new {start image dep : Nat} (needs : NeedsNew s start image dep) :
    dep ∈ newSlots s start := by
  obtain ⟨above, need, _, found⟩ := needs
  exact mem_newSlots.mpr ⟨above, mem_range.mp (mem_of_find?_eq_some found)⟩

section Order

variable {needs : Name → List Name} {block : List Name} (grown : Grown needs s.names s t block)
  (distinct : block.Nodup)
include grown

theorem Grown.newNames : (newSlots t s.count).map (fun k => (t.libs k).soname) = block := by
  have front : s.names = (range s.count).map fun k => (t.libs k).soname :=
    map_congr_left fun k inside => by rw [grown.kept k (mem_range.mp inside)]
  have names := grown.names
  rw [front, State.names, grown.count, range_add, map_append] at names
  rw [newSlots, grown.count, Nat.add_sub_cancel_left, range'_eq_map_range]
  exact append_cancel_left names

include distinct

theorem Grown.needsNew {image dep : Nat} (new : image ∈ newSlots t s.count)
    (newDep : dep ∈ newSlots t s.count) : NeedsNew t s.count image dep ↔
      (t.libs dep).soname ∈ needs (t.libs image).soname := by
  obtain ⟨low, high⟩ := mem_newSlots.mp new
  obtain ⟨above, below⟩ := mem_newSlots.mp newDep
  have known {i : Nat} (early : i < s.count) : (t.libs i).soname ∈ s.names :=
    mem_map.mpr ⟨i, mem_range.mpr early, by rw [grown.kept i early]⟩
  simp only [NeedsNew, above, true_and, loadedSlotNamed, find?_range_eq_some,
    ← grown.needed image low high, mem_filter, decide_eq_true_eq]
  constructor
  · rintro ⟨need, needed, rfl, _, first⟩
    refine ⟨needed, fun isOld => ?_⟩
    obtain ⟨i, early, same⟩ := mem_map.mp isOld
    have early := mem_range.mp early
    simpa [grown.kept i early, same] using first i (early.trans_le above)
  · rintro ⟨needed, isNew⟩
    refine ⟨_, needed, rfl, mem_range.mpr below, fun i earlier => ?_⟩
    rw [Bool.not_eq_true', decide_eq_false_iff_not]
    intro same
    by_cases early : i < s.count
    · exact isNew (same ▸ known early)
    · rw [← grown.newNames] at distinct
      have newSlot := mem_newSlots.mpr ⟨Nat.le_of_not_lt early, earlier.trans below⟩
      exact earlier.ne (inj_on_of_nodup_map distinct newSlot newDep same)

end Order

theorem dlopen_loads {world : World} {path : Name} {noLoad : Bool} {handle : Nat}
    {calls : List (Nat × List UInt64)} (isNew : loadedSlotAt s (libraryPath path) = none)
    (opened : dlopen world s (some path) noLoad = (some handle, t, calls)) :
    load world world.maxLibraries s (libraryPath path) = (false, t) ∧
      runInitializers t (newSlots t s.count).reverse = calls := by
  unfold dlopen at opened
  dsimp only at opened
  split at opened
  · cases opened
  rw [isNew] at opened
  dsimp only at opened
  split at opened
  · cases opened
  split at opened
  · cases opened
  next loaded =>
  cases opened
  exact ⟨loaded, rfl⟩

/-- The initializers of every new image are called once.  No image comes before one that it
needs, directly or through others, if and only if of any two images that need a third one, one
names before the third what leads to the other. -/
theorem initializers_run_dependencies_first (world : World) (state later : State) (path : Name)
    (noLoad : Bool) (handle : Nat) (calls : List (Nat × List UInt64))
    (basenames : ∀ path, ∀ need ∈ (world.file path).needed, Basename need)
    (acyclic : Acyclic (world.needs state (libraryPath path)))
    (isNew : loadedSlotAt state (libraryPath path) = none)
    (opened : dlopen world state (some path) noLoad = (some handle, later, calls)) :
    (calls.map Prod.fst).Nodup ∧
    (∀ slot, slot ∈ calls.map Prod.fst ↔ state.count ≤ slot ∧ slot < later.count) ∧
    (∀ call ∈ calls, call.2 = (later.libs call.1).initializers) ∧
    (((calls.map Prod.fst).Pairwise fun first second =>
        ¬ TransGen (NeedsNew later state.count) first second) ↔
      Nested (world.needs state (libraryPath path)) (sonameOf (libraryPath path))) := by
  obtain ⟨loaded, rfl⟩ := dlopen_loads isNew opened
  generalize libraryPath path = full at *
  obtain ⟨slots, size⟩ : ∃ slots, world.maxLibraries = slots + 1 := by
    refine Nat.exists_eq_add_one_of_ne_zero fun none => ?_
    rw [none] at loaded
    cases loaded
  rw [size] at loaded
  obtain ⟨below, walk, grown⟩ := load_walks (load_brings basenames state full slots)
    (basenames full) (append_nil _).symm (by simp) (by rw [World.needs, if_pos rfl]) loaded
  have order : (runInitializers later (newSlots later state.count).reverse).map Prod.fst =
      (newSlots later state.count).reverse := by simp [runInitializers, comp_def]
  have distinct : (sonameOf full :: below).Nodup :=
    nodup_cons.mpr ⟨fun again => walk.fresh.2 _ again (by simp), walk.fresh.1⟩
  rw [order]
  refine ⟨nodup_reverse.mpr (nodup_range' 1), fun slot => by rw [mem_reverse, mem_newSlots],
    by simp [runInitializers], ?_⟩
  rw [← ahead_iff_nested acyclic walk, pairwise_reverse, ← grown.newNames, Ahead, pairwise_map]
  constructor
  · refine Pairwise.imp_of_mem fun first second apart needed => apart (.single ?_)
    exact (grown.needsNew distinct second first).mpr needed
  · intro ahead
    have upward := Pairwise.forall_of_forall_of_flip
      (R := fun image dep => NeedsNew later state.count image dep → image < dep)
      (fun slot new self => absurd (.single ((grown.needsNew distinct new new).mp self))
        (acyclic _))
      ((pairwise_lt_range' 1).imp fun {x y} less (_ : NeedsNew later state.count x y) => less)
      (ahead.imp_of_mem fun {_ _} first second none needed =>
        absurd ((grown.needsNew distinct second first).mp needed) none)
    have rises {image dep : Nat} (new : image ∈ newSlots later state.count)
        (needs : TransGen (NeedsNew later state.count) image dep) :
        dep ∈ newSlots later state.count ∧ image < dep := by
      induction needs with
      | single needs => exact ⟨needs.new, upward new needs.new needs⟩
      | tail _ needs ih => exact ⟨needs.new, ih.2.trans (upward ih.1 needs.new needs)⟩
    exact (pairwise_lt_range' 1).imp_of_mem fun _ second less needs =>
      less.asymm (rises second needs).2

/-- Libraries with one-letter names, whose initializers are their letters. -/
def worldOf (needs : Char → List Char) : World where
  maxLibraries := 8
  file := fun path => match path.drop 5 with
    | [letter] => { needed := (needs letter).map ([·]), init := some letter.toNat.toUInt64 }
    | _ => { needed := [] }
  places := fun _ _ => true
  relocates := fun _ _ => true

def program : State := ⟨1, fun _ => { needed := [], soname := [], path := [] }⟩

/-- `a` needs `b` and `c`, and `b` needs `c`. -/
def chain : World :=
  worldOf fun letter => if letter = 'a' then ['b', 'c'] else if letter = 'b' then ['c'] else []

/-- Both `b` and `c` need `d`. -/
def diamond : World :=
  worldOf fun letter => if letter = 'a' then ['b', 'c'] else if letter = 'd' then [] else ['d']

theorem chain_file {path need : Name} (needed : need ∈ (chain.file path).needed) :
    need = ['b'] ∨ need = ['c'] := by
  simp only [chain, worldOf] at needed
  split at needed
  · dsimp only at needed
    split at needed
    · simpa using needed
    split at needed
    · exact .inr (by simpa using needed)
    · cases needed
  · cases needed

section Chain

variable {name need : Name}

theorem chain_needs : chain.needs program (libraryPath ['a']) ['a'] = [['b'], ['c']] ∧
    chain.needs program (libraryPath ['a']) ['b'] = [['c']] ∧
    chain.needs program (libraryPath ['a']) ['c'] = [] := by decide +kernel

/-- How far the images that can be needed are from the opened one. -/
def chainRank (name : Name) : Nat := if name = ['c'] then 2 else if name = ['b'] then 1 else 0

theorem chain_acyclic : Acyclic (chain.needs program (libraryPath ['a'])) := by
  obtain ⟨_, second, third⟩ := chain_needs
  have rises {name need : Name} (edge : Edge (chain.needs program (libraryPath ['a'])) name need) :
      chainRank name < chainRank need := by
    unfold Edge at edge
    by_cases last : name = ['c']
    · rw [last, third] at edge
      cases edge
    by_cases middle : name = ['b']
    · rw [middle, second, mem_singleton] at edge
      rw [edge, middle]
      decide
    · rw [chainRank, if_neg last, if_neg middle]
      rcases chain_file (mem_of_mem_filter edge) with rfl | rfl <;> decide
  intro name path
  have cycle := path.lift chainRank fun _ _ => rises
  rw [transGen_eq_self] at cycle
  exact lt_irrefl _ cycle

theorem chain_nested : Nested (chain.needs program (libraryPath ['a'])) ['a'] := by
  obtain ⟨first, second, third⟩ := chain_needs
  have reached {name : Name} (leads : Leads (chain.needs program (libraryPath ['a'])) ['a'] name) :
      name = ['a'] ∨ name = ['b'] ∨ name = ['c'] := by
    cases leads with
    | refl => exact .inl rfl
    | tail _ edge => exact .inr (chain_file (mem_of_mem_filter edge))
  intro node other dep left right apart needed shared
  have front : Named (chain.needs program (libraryPath ['a'])) [['b'], ['c']] ['c'] ['b'] :=
    ⟨['b'], by decide, .refl⟩
  rcases reached left with rfl | rfl | rfl <;> rcases reached right with rfl | rfl | rfl <;>
    simp_all

end Chain

theorem initializers_run_dependencies_first_chain :
    let opened := dlopen chain program (some ['a']) false
    opened.1 = some 1 ∧ (opened.2.2.map Prod.fst).Pairwise fun first second =>
      ¬ TransGen (NeedsNew opened.2.1 1) first second := by
  have handle : (dlopen chain program (some ['a']) false).1 = some 1 := by decide +kernel
  have basenames : ∀ path, ∀ need ∈ (chain.file path).needed, Basename need := by
    intro path need needed
    rcases chain_file needed with rfl | rfl <;> exact ⟨by decide, by decide⟩
  have whole {opened : Option Nat × State × List (Nat × List UInt64)} (handle : opened.1 = some 1) :
      opened = (some 1, opened.2.1, opened.2.2) := Prod.ext handle rfl
  have ⟨_, _, _, order⟩ := initializers_run_dependencies_first chain program _ ['a'] false 1 _
    basenames chain_acyclic (by decide) (whole handle)
  exact ⟨handle, order.mpr chain_nested⟩

/-- The initializer of `c` is called before that of `d`, which it needs. -/
theorem diamond_initializes_dependent_first :
    let opened := dlopen diamond program (some ['a']) false
    opened.2.2.map (·.1) = [4, 3, 2, 1] ∧ NeedsNew opened.2.1 1 4 3 := by
  decide +kernel

end SavanXP.Loader
