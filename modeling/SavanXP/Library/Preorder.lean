import Mathlib

/-!
# Walks of a dependency graph in preorder

A walk lists a node and then, for each of its dependencies that is not listed yet, what the
walk of that one lists.  Read backwards the list has every node after its dependencies, if
for each two nodes that share a dependency one of them leads to the other before it comes to
the shared one, and only then.
-/

namespace SavanXP.Library

open List Relation

variable {α : Type*}

/-- With the nodes `seen` listed, a walk of the dependencies `names` lists `block`. -/
inductive Walks (needs : α → List α) : List α → List α → List α → Prop
  | nil (seen : List α) : Walks needs seen [] []
  | skip {seen names block : List α} {name : α} : name ∈ seen → Walks needs seen names block →
      Walks needs seen (name :: names) block
  | visit {seen names below rest : List α} {name : α} : name ∉ seen →
      Walks needs (seen ++ [name]) (needs name) below →
      Walks needs (seen ++ name :: below) names rest →
      Walks needs seen (name :: names) (name :: below ++ rest)

def Edge (needs : α → List α) (node dep : α) : Prop := dep ∈ needs node

/-- One node is the other, or it needs the other through some dependencies. -/
def Leads (needs : α → List α) : α → α → Prop := ReflTransGen (Edge needs)

/-- No node needs itself through its dependencies. -/
def Acyclic (needs : α → List α) : Prop := ∀ node, ¬ TransGen (Edge needs) node node

/-- Before `dep` stands a name that leads to `other`. -/
def Named [DecidableEq α] (needs : α → List α) (names : List α) (dep other : α) : Prop :=
  ∃ name ∈ names.takeWhile (· ≠ dep), Leads needs name other

/-- Of two nodes with a dependency in common, one names before it what leads to the other. -/
def Nested [DecidableEq α] (needs : α → List α) (root : α) : Prop :=
  ∀ node other dep, Leads needs root node → Leads needs root other → node ≠ other →
    dep ∈ needs node → dep ∈ needs other →
    Named needs (needs node) dep other ∨ Named needs (needs other) dep node

/-- No node comes after one of its dependencies. -/
def Ahead (needs : α → List α) (nodes : List α) : Prop :=
  nodes.Pairwise fun first second => first ∉ needs second

variable {needs : α → List α} {seen names block below : List α} {root node dep other name : α}

namespace Walks

theorem fresh (walk : Walks needs seen names block) : block.Nodup ∧ ∀ x ∈ block, x ∉ seen := by
  induction walk with
  | nil => simp
  | skip _ _ ih => exact ih
  | visit new _ _ first later =>
    simp only [cons_append, nodup_cons, nodup_append, mem_cons, mem_append] at *
    grind

theorem closed (walk : Walks needs seen names block) :
    names ⊆ seen ++ block ∧ ∀ x ∈ block, needs x ⊆ seen ++ block := by
  induction walk with
  | nil => simp
  | skip listed _ ih => exact ⟨cons_subset.mpr ⟨mem_append_left _ listed, ih.1⟩, ih.2⟩
  | visit new _ _ first later =>
    simp only [subset_def, mem_cons, mem_append, cons_append] at *
    grind

theorem leads (walk : Walks needs seen names block) :
    ∀ x ∈ block, ∃ name ∈ names, Leads needs name x := by
  induction walk with
  | nil => simp
  | skip _ _ ih => exact fun x listed => (ih x listed).imp fun _ => .imp_left (.tail _)
  | @visit _ _ _ _ name new _ _ first later =>
    simp only [cons_append, mem_cons, mem_append]
    rintro x (rfl | listed | listed)
    · exact ⟨x, .inl rfl, .refl⟩
    · obtain ⟨next, named, leads⟩ := first x listed
      exact ⟨name, .inl rfl, .head named leads⟩
    · exact (later x listed).imp fun _ => .imp_left .inr

variable [DecidableEq α]

theorem longer (walk : Walks needs seen names block) (listed : name ∈ seen)
    (named : block.Pairwise fun first dep => dep ∈ names → Named needs names dep first) :
    block.Pairwise fun first dep => dep ∈ name :: names →
      Named needs (name :: names) dep first := by
  refine named.imp_of_mem fun _ inside before here => ?_
  have apart := ne_of_mem_of_not_mem listed (walk.fresh.2 _ inside)
  obtain ⟨front, stands, leads⟩ := before ((mem_cons.mp here).resolve_left apart.symm)
  refine ⟨front, ?_, leads⟩
  rw [takeWhile_cons, if_pos (by simpa using apart)]
  exact .tail _ stands

/-- What is listed before a dependency comes from the names before it. -/
theorem named (walk : Walks needs seen names block) :
    block.Pairwise fun first dep => dep ∈ names → Named needs names dep first := by
  induction walk with
  | nil => exact .nil
  | skip listed walk ih => exact walk.longer listed ih
  | @visit seen names below rest name new down onward _ later =>
    have front : ∀ x ∈ name :: below, ∀ dep ∈ below ++ rest, Named needs (name :: names) dep x := by
      intro x listed dep inside
      have apart : name ≠ dep := by
        rintro rfl
        rcases mem_append.mp inside with inside | inside
        · exact down.fresh.2 _ inside (by simp)
        · exact onward.fresh.2 _ inside (by simp)
      refine ⟨name, by simp [apart], ?_⟩
      rcases mem_cons.mp listed with rfl | listed
      · exact .refl
      · obtain ⟨next, named, leads⟩ := down.leads x listed
        exact .head named leads
    refine pairwise_append.mpr ⟨pairwise_cons.mpr ⟨fun dep inside _ => ?_, ?_⟩,
      onward.longer (by simp) later, ?_⟩
    · exact front name mem_cons_self dep (mem_append_left _ inside)
    · exact pairwise_of_forall_mem_list fun x listed dep inside _ =>
        front x (.tail _ listed) dep (mem_append_left _ inside)
    · exact fun x listed dep inside _ => front x listed dep (mem_append_right _ inside)

theorem head (walk : Walks needs (seen ++ [node]) (needs node) below) (acyclic : Acyclic needs)
    (ahead : Ahead needs (seen ++ node :: below)) (listed : other ∈ below)
    (needed : dep ∈ needs node) (shared : dep ∈ needs other) :
    Named needs (needs node) dep other := by
  obtain ⟨_, order, earlier⟩ := pairwise_append.mp ahead
  obtain ⟨first, order⟩ := pairwise_cons.mp order
  have inside : dep ∈ below := by
    have known := walk.closed.1 needed
    simp only [append_assoc, mem_append, mem_cons, not_mem_nil, or_false] at known
    rcases known with known | rfl | known
    · exact absurd shared (earlier dep known other (.tail _ listed))
    · exact absurd shared (first other listed)
    · exact known
  have before := Pairwise.forall_of_forall_of_flip
    (R := fun x y => y ∈ needs x → y ∈ needs node → Named needs (needs node) y x)
    (fun x _ self => absurd (.single self) (acyclic x))
    (walk.named.imp fun {x y} before (_ : y ∈ needs x) => before)
    (order.imp fun {_ _} none back => absurd back none)
  exact before listed inside shared needed

/-- Of two nodes that share a dependency, the one listed first names what leads to the other. -/
theorem nested (walk : Walks needs seen names block) (acyclic : Acyclic needs)
    (ahead : Ahead needs (seen ++ block)) : block.Pairwise fun node other =>
      ∀ dep ∈ needs node, dep ∈ needs other → Named needs (needs node) dep other := by
  induction walk with
  | nil => exact .nil
  | skip _ _ ih => exact ih ahead
  | @visit seen names below rest name new down onward first later =>
    have whole : Ahead needs (seen ++ name :: below ++ rest) := by simpa using ahead
    obtain ⟨part, _, cross⟩ := pairwise_append.mp whole
    refine pairwise_append.mpr ⟨pairwise_cons.mpr ⟨fun other listed dep => ?_, ?_⟩,
      later whole, ?_⟩
    · exact down.head acyclic part listed
    · exact first (by simpa [Ahead] using part)
    · intro node listed other after dep needed shared
      refine absurd shared (cross dep ?_ other after)
      have known : dep ∈ seen ++ [name] ++ below := by
        rcases mem_cons.mp listed with rfl | listed
        · exact down.closed.1 needed
        · exact down.closed.2 node listed needed
      simpa using known

end Walks

/-- What the names lead to is listed. -/
def Covers (needs : α → List α) (seen names : List α) : Prop :=
  ∀ name ∈ names, ∀ x, Leads needs name x → x ∈ seen

variable [DecidableEq α]

/-- The state of a walk, in the list of `node` between the names `walked` and those left. -/
structure Sound (needs : α → List α) (root : α) (seen walked names : List α) (node : α) :
    Prop where
  ahead : Ahead needs seen
  sourced : ∀ dep ∈ seen, dep = root ∨ ∃ source ∈ seen, Leads needs root source ∧
    dep ∈ needs source ∧ Covers needs seen ((needs source).takeWhile (· ≠ dep))
  reached : Leads needs root node
  here : node ∈ seen
  list : needs node = walked ++ names
  covers : Covers needs seen walked
  settled : ∀ x ∈ seen, needs x ⊆ seen ∨ Leads needs x node

namespace Sound

variable {walked rest : List α} (sound : Sound needs root seen walked names node)
  (acyclic : Acyclic needs)
include sound acyclic

/-- A node that is not listed yet needs none that is. -/
theorem unseen (nested : Nested needs root) (inside : dep ∈ seen) (outside : other ∉ seen)
    (reached : Leads needs root other) : dep ∉ needs other := by
  have order {x y : α} (left : x ∈ seen) (right : y ∈ seen) (edge : y ∈ needs x) :
      seen.idxOf x ≤ seen.idxOf y := by
    by_contra less
    have none := pairwise_iff_getElem.mp sound.ahead _ _ (idxOf_lt_length_of_mem right)
      (idxOf_lt_length_of_mem left) (Nat.lt_of_not_le less)
    rw [getElem_idxOf, getElem_idxOf] at none
    exact none edge
  -- on the place of `dep`: before it, no unlisted node needs any
  induction place : seen.idxOf dep using Nat.strong_induction_on generalizing dep other with
  | h place earlier =>
    subst place
    intro edge
    rcases sound.sourced dep inside with rfl | ⟨source, listed, known, brings, covers⟩
    · exact acyclic dep (.tail' reached edge)
    have apart : source ≠ other := ne_of_mem_of_not_mem listed outside
    rcases nested source other dep known reached apart brings edge with
      ⟨name, front, leads⟩ | ⟨name, front, leads⟩
    · exact outside (covers name front other leads)
    have late {x : α} (leads : Leads needs other x) :
        x ∈ seen → seen.idxOf dep ≤ seen.idxOf x := by
      induction leads with
      | refl => exact fun listed => absurd listed outside
      | @tail x y leads step ih =>
        intro listed
        by_contra less
        by_cases known : x ∈ seen
        · exact less ((ih known).trans (order known listed step))
        · exact earlier _ (Nat.lt_of_not_le less) listed known (reached.trans leads) rfl step
    have behind := late (.head ((takeWhile_sublist _).subset front) leads) listed
    have same := (idxOf_inj listed).mp (Nat.le_antisymm (order listed inside brings) behind)
    exact acyclic dep (.single (same ▸ brings))

theorem enter (nested : Nested needs root) (outside : dep ∉ seen) (list : names = dep :: rest) :
    Sound needs root (seen ++ [dep]) [] (needs dep) dep := by
  have edge : dep ∈ needs node := by simp [sound.list, list]
  have reached : Leads needs root dep := sound.reached.tail edge
  have grows {names : List α} (covers : Covers needs seen names) :
      Covers needs (seen ++ [dep]) names :=
    fun name listed x leads => mem_append_left _ (covers name listed x leads)
  refine ⟨pairwise_append.mpr ⟨sound.ahead, pairwise_singleton .., fun x listed y single => ?_⟩,
    fun x listed => ?_, reached, by simp, rfl, fun _ none => absurd none not_mem_nil,
    fun x listed => ?_⟩
  · obtain rfl := mem_singleton.mp single
    exact sound.unseen acyclic nested listed outside reached
  · rcases mem_append.mp listed with listed | single
    · refine (sound.sourced x listed).imp_right ?_
      rintro ⟨source, known, lead, brings, covers⟩
      exact ⟨source, mem_append_left _ known, lead, brings, grows covers⟩
    · obtain rfl := mem_singleton.mp single
      refine .inr ⟨node, mem_append_left _ sound.here, sound.reached, edge, grows ?_⟩
      have front : x ∉ walked := fun before => outside (sound.covers x before x .refl)
      rw [sound.list, list, takeWhile_append_of_pos fun y before => by
        simpa using ne_of_mem_of_not_mem before front]
      simpa using sound.covers
  · rcases mem_append.mp listed with listed | single
    · exact (sound.settled x listed).imp (fun all => Subset.trans all (subset_append_left ..))
        fun leads => leads.tail edge
    · exact .inr (mem_singleton.mp single ▸ .refl)

theorem advance (list : names = name :: rest) (listed : name ∈ seen) :
    Sound needs root seen (walked ++ [name]) rest node := by
  have lists : needs node = walked ++ [name] ++ rest := by simp [sound.list, list]
  have edge : name ∈ needs node := by simp [lists]
  refine { sound with list := lists, covers := fun other before x leads => ?_ }
  rcases mem_append.mp before with before | single
  · exact sound.covers other before x leads
  obtain rfl := mem_singleton.mp single
  induction leads with
  | refl => exact listed
  | tail leads step ih =>
    rcases sound.settled _ ih with all | back
    · exact all step
    · exact absurd (TransGen.head' edge (leads.trans back)) (acyclic node)

end Sound

theorem Walks.sound {walked : List α} (walk : Walks needs seen names block)
    (acyclic : Acyclic needs) (nested : Nested needs root)
    (sound : Sound needs root seen walked names node) :
    Sound needs root (seen ++ block) (walked ++ names) [] node := by
  induction walk generalizing walked node with
  | nil => simpa using sound
  | skip listed _ ih => simpa using ih (sound.advance acyclic rfl listed)
  | @visit seen names below rest name new down onward first later =>
    have inner := first (sound.enter acyclic nested new rfl)
    simp only [append_assoc, cons_append, nil_append] at inner
    have grown : seen ⊆ seen ++ name :: below := subset_append_left ..
    have all : ∀ x ∈ name :: below, needs x ⊆ seen ++ name :: below := by
      simpa using And.intro down.closed.1 down.closed.2
    have after : Sound needs root (seen ++ name :: below) walked (name :: names) node :=
      { inner with
        reached := sound.reached
        here := grown sound.here
        list := sound.list
        covers := fun other before x leads => grown (sound.covers other before x leads)
        settled := fun x listed => (mem_append.mp listed).elim
          (fun old => (sound.settled x old).imp_left fun known => Subset.trans known grown)
          fun fresh => .inl (all x fresh) }
    simpa using later (after.advance acyclic rfl (by simp))

/-- The walk lists every node ahead of its dependencies if and only if the graph is nested. -/
theorem ahead_iff_nested (acyclic : Acyclic needs) (walk : Walks needs [root] (needs root) below) :
    Ahead needs (root :: below) ↔ Nested needs root := by
  constructor
  · intro ahead
    have pairs := pairwise_cons.mpr ⟨fun other listed dep =>
      @Walks.head _ _ [] _ _ _ _ _ walk acyclic ahead listed, walk.nested acyclic ahead⟩
    have listed {x : α} (leads : Leads needs root x) : x ∈ root :: below := by
      induction leads with
      | refl => exact mem_cons_self
      | tail _ step ih =>
        exact (mem_cons.mp ih).elim (fun same => same ▸ walk.closed.1) (walk.closed.2 _) step
    intro node other dep left right apart
    refine Pairwise.forall_of_forall_of_flip (R := fun node other => node ≠ other → ∀ dep,
      dep ∈ needs node → dep ∈ needs other →
      Named needs (needs node) dep other ∨ Named needs (needs other) dep node)
      (fun _ _ self => absurd rfl self) (pairs.imp fun named _ dep left right => .inl ?_)
      (pairs.imp fun named _ dep left right => .inr ?_) (listed left) (listed right) apart dep
    · exact named dep left right
    · exact named dep right left
  · intro nested
    have start : Sound needs root [root] [] (needs root) root :=
      ⟨pairwise_singleton .., fun _ listed => .inl (mem_singleton.mp listed), .refl,
        mem_cons_self, rfl, fun _ listed => absurd listed not_mem_nil,
        fun _ listed => .inr (mem_singleton.mp listed ▸ .refl)⟩
    exact (walk.sound acyclic nested start).ahead

end SavanXP.Library
