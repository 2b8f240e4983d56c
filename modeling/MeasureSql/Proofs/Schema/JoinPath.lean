import Mathlib.Data.List.Nodup
import Mathlib.Data.List.Perm.Subperm
import Mathlib.Logic.Relation
import MeasureSql.Schema.JoinPath
import MeasureSql.Schema.Retail

/-!
# Shortest join paths

The search for a join path is a breadth-first search of the graph whose edges are the active
relationships.  While the steps of one node are tried, every node seen is at the end of a shortest
chain, the nodes that wait are at most one step farther than that node, and the others seen have
only neighbours that have been seen (`Trying`).  A chain to an unseen node therefore leaves the
nodes seen at one that is as far as the node being tried, and has one relationship more.

## Main definitions

* `Schema.Joins`, `Schema.Chain`, `Schema.Connected` — the graph, its paths and its components.
* `Schema.Traced`, `Schema.chainTo` — arrivals in an order that leads back to the source, and the
  chain that they note for a node.
* `Schema.Trying` — the invariant of the search.

## Main results

* `Schema.walkBack_eq_chainTo` — the walk back reads the chain of the arrivals.
* `Schema.Trying.step`, `Schema.search_tells` — one step, and a whole search.
* `Schema.joinPath_correct` — a path is found exactly if there is one, and it is a shortest one.
-/

namespace MeasureSql

namespace Schema

variable {s : Schema} {source goal : String}

/-! ### The graph of the active relationships -/

/-- An active relationship between two nodes, in either direction. -/
def Joins (s : Schema) (a b : String) (r : Relationship) : Prop :=
  r ∈ s.relationships ∧ r.isActive = true ∧
    (r.fromKey = a ∧ r.toKey = b ∨ r.fromKey = b ∧ r.toKey = a)

theorem mem_steps {a b : String} {r : Relationship} : (b, r) ∈ s.steps a ↔ s.Joins a b r := by
  simp only [steps, activeRelationships, Joins, List.mem_append, List.mem_map, List.mem_reverse,
    List.mem_filter, Prod.mk.injEq, Bool.and_eq_true, beq_iff_eq, bne_iff_ne]
  constructor
  · rintro (⟨r', ⟨⟨hr, active⟩, leaves⟩, rfl, rfl⟩ | ⟨r', ⟨⟨hr, active⟩, arrives, -⟩, rfl, rfl⟩)
    · exact ⟨hr, active, .inl ⟨leaves, rfl⟩⟩
    · exact ⟨hr, active, .inr ⟨rfl, arrives⟩⟩
  · rintro ⟨hr, active, ⟨leaves, rfl⟩ | ⟨rfl, arrives⟩⟩
    · exact .inl ⟨r, ⟨⟨hr, active⟩, leaves⟩, rfl, rfl⟩
    · -- a relationship of a table with itself is among those that leave
      by_cases loop : r.fromKey = a
      · exact .inl ⟨r, ⟨⟨hr, active⟩, loop⟩, arrives.trans loop.symm, rfl⟩
      · exact .inr ⟨r, ⟨⟨hr, active⟩, arrives, loop⟩, rfl, rfl⟩

/-- A chain of active relationships from one node to another, each from where the last one led. -/
def Chain (s : Schema) : String → List Relationship → String → Prop
  | a, [], b => a = b
  | a, r :: rest, b => ∃ m, s.Joins a m r ∧ s.Chain m rest b

@[simp] theorem chain_nil {a b : String} : s.Chain a [] b ↔ a = b := Iff.rfl

@[simp] theorem chain_cons {a b : String} {r : Relationship} {p : List Relationship} :
    s.Chain a (r :: p) b ↔ ∃ m, s.Joins a m r ∧ s.Chain m p b := Iff.rfl

theorem chain_append {a b : String} {p q : List Relationship} :
    s.Chain a (p ++ q) b ↔ ∃ m, s.Chain a p m ∧ s.Chain m q b := by
  induction p generalizing a with
  | nil => simp
  | cons r p ih =>
    simp only [List.cons_append, chain_cons, ih]
    exact ⟨fun ⟨m, hr, n, hp, hq⟩ => ⟨n, ⟨m, hr, hp⟩, hq⟩,
      fun ⟨n, ⟨m, hr, hp⟩, hq⟩ => ⟨m, hr, n, hp, hq⟩⟩

/-- Two nodes that can be reached from each other. -/
def Connected (s : Schema) : String → String → Prop :=
  Relation.ReflTransGen fun a b => ∃ r, s.Joins a b r

theorem connected_iff_exists_chain {a b : String} : s.Connected a b ↔ ∃ p, s.Chain a p b := by
  constructor
  · intro h
    induction h with
    | refl => exact ⟨[], rfl⟩
    | tail _ hr ih =>
      obtain ⟨p, hp⟩ := ih
      obtain ⟨r, hr⟩ := hr
      exact ⟨p ++ [r], chain_append.mpr ⟨_, hp, _, hr, rfl⟩⟩
  · rintro ⟨p, hp⟩
    induction p generalizing a with
    | nil => exact hp ▸ .refl
    | cons r p ih =>
      obtain ⟨m, hr, hp⟩ := hp
      exact .head ⟨r, hr⟩ (ih hp)

/-- A chain to a node outside of a set in which it begins leaves the set somewhere. -/
theorem Chain.exit {a b : String} {q : List Relationship} (within : String → Prop)
    (ha : within a) (hb : ¬ within b) (h : s.Chain a q b) :
    ∃ p m n r, s.Chain a p m ∧ within m ∧ s.Joins m n r ∧ ¬ within n ∧ p.length < q.length := by
  induction q generalizing a with
  | nil => exact absurd (chain_nil.mp h ▸ ha) hb
  | cons r q ih =>
    obtain ⟨m, hr, hq⟩ := h
    by_cases hm : within m
    · obtain ⟨p, m', n, r', hp, hm', hr', hn, shorter⟩ := ih hm hq
      exact ⟨r :: p, m', n, r', ⟨m, hr, hp⟩, hm', hr', hn, Nat.succ_lt_succ shorter⟩
    · exact ⟨[], a, m, r, rfl, ha, hr, hm, Nat.succ_pos _⟩

/-- A shortest chain takes no relationship twice: what lies between the two times could be left
out. -/
theorem Chain.nodup {a b : String} {p : List Relationship} (h : s.Chain a p b)
    (shortest : ∀ q, s.Chain a q b → p.length ≤ q.length) : p.Nodup := by
  induction p generalizing a with
  | nil => exact List.nodup_nil
  | cons r p ih =>
    obtain ⟨m, hr, hp⟩ := h
    refine List.nodup_cons.mpr ⟨fun again => ?_, ih hp fun q hq => ?_⟩
    · obtain ⟨p₁, p₂, rfl⟩ := List.append_of_mem again
      obtain ⟨x, -, y, hr', hp₂⟩ := chain_append.mp hp
      -- the second time the relationship leads to one of the ends that it had the first time
      have back : y = m ∨ y = a := by
        obtain ⟨-, -, h⟩ := hr
        obtain ⟨-, -, h'⟩ := hr'
        grind
      rcases back with rfl | rfl
      · have := shortest (r :: p₂) ⟨_, hr, hp₂⟩
        simp only [List.length_cons, List.length_append] at this
        omega
      · have := shortest p₂ hp₂
        simp only [List.length_cons, List.length_append] at this
        omega
    · simpa using shortest (r :: q) ⟨m, hr, hq⟩

/-! ### Arrivals -/

/-- The nodes that have been reached. -/
def reached (source : String) (arrivals : List Arrival) : List String :=
  arrivals.map (·.node) ++ [source]

@[simp] theorem reached_nil : reached source [] = [source] := rfl

@[simp] theorem reached_cons {a : Arrival} {as : List Arrival} :
    reached source (a :: as) = a.node :: reached source as := rfl

theorem source_mem_reached {as : List Arrival} : source ∈ reached source as :=
  List.mem_append_right _ (List.mem_singleton_self _)

/-- Every arrival is at a new node, along a relationship from a node that was reached before. -/
inductive Traced (s : Schema) (source : String) : List Arrival → Prop
  | nil : Traced s source []
  | cons {a : Arrival} {as : List Arrival} (before : Traced s source as)
      (parent : a.parent ∈ reached source as) (new : a.node ∉ reached source as)
      (step : s.Joins a.parent a.node a.via) : Traced s source (a :: as)

/-- The chain that the arrivals note for a node. -/
def chainTo : List Arrival → String → List Relationship
  | [], _ => []
  | a :: as, node => if a.node = node then chainTo as a.parent ++ [a.via] else chainTo as node

theorem chainTo_cons_self {a : Arrival} {as : List Arrival} :
    chainTo (a :: as) a.node = chainTo as a.parent ++ [a.via] := if_pos rfl

theorem chainTo_cons_of_mem {a : Arrival} {as : List Arrival} {node : String}
    (new : a.node ∉ reached source as) (h : node ∈ reached source as) :
    chainTo (a :: as) node = chainTo as node :=
  if_neg fun same : a.node = node => new (same ▸ h)

theorem Traced.chain {as : List Arrival} (h : Traced s source as) {node : String}
    (hn : node ∈ reached source as) : s.Chain source (chainTo as node) node := by
  induction h generalizing node with
  | nil => exact (List.mem_singleton.mp hn).symm
  | cons before parent new step ih =>
    rcases List.mem_cons.mp hn with rfl | hn
    · rw [chainTo_cons_self]
      exact chain_append.mpr ⟨_, ih parent, _, step, rfl⟩
    · rw [chainTo_cons_of_mem new hn]
      exact ih hn

theorem Traced.parent_mem {as : List Arrival} (h : Traced s source as) {a : Arrival}
    (ha : a ∈ as) : a.parent ∈ reached source as := by
  induction h with
  | nil => exact absurd ha List.not_mem_nil
  | cons before parent new step ih =>
    rcases List.mem_cons.mp ha with rfl | ha
    · exact List.mem_cons_of_mem _ parent
    · exact List.mem_cons_of_mem _ (ih ha)

theorem Traced.nodup {as : List Arrival} (h : Traced s source as) :
    (reached source as).Nodup := by
  induction h with
  | nil => exact List.nodup_singleton _
  | cons before parent new step ih => exact List.nodup_cons.mpr ⟨new, ih⟩

/-- The nodes reached are the source and ends of relationships. -/
theorem Traced.mem_ends {as : List Arrival} (h : Traced s source as) {node : String}
    (hn : node ∈ reached source as) :
    node ∈ s.relationships.map (·.fromKey) ++ s.relationships.map (·.toKey) ++ [source] := by
  induction h with
  | nil => exact List.mem_append_right _ hn
  | cons before parent new step ih =>
    rcases List.mem_cons.mp hn with rfl | hn
    · obtain ⟨hr, -, ⟨-, h⟩ | ⟨h, -⟩⟩ := step
      · exact List.mem_append_left _ (List.mem_append_right _ (List.mem_map.mpr ⟨_, hr, h⟩))
      · exact List.mem_append_left _ (List.mem_append_left _ (List.mem_map.mpr ⟨_, hr, h⟩))
    · exact ih hn

theorem Traced.length_le {as : List Arrival} (h : Traced s source as) :
    as.length ≤ 2 * s.relationships.length := by
  have := (h.nodup.subperm fun _ => h.mem_ends).length_le
  simp only [reached, List.length_append, List.length_map, List.length_singleton] at this
  omega

/-- A later arrival is not met on the way back from an earlier one. -/
theorem walkBack_cons {a : Arrival} {as : List Arrival} (h : Traced s source as)
    (new : a.node ∉ reached source as) {node : String} (hn : node ∈ reached source as)
    (steps : Nat) (chain : List Relationship) :
    walkBack source (a :: as) steps node chain = walkBack source as steps node chain := by
  induction steps generalizing node chain with
  | zero => rfl
  | succ steps ih =>
    have other : (a.node == node) = false := beq_false_of_ne fun same => new (same ▸ hn)
    simp only [walkBack, List.find?_cons, other]
    split
    · rfl
    · cases found : as.find? (·.node == node) with
      | none => rfl
      | some b => exact ih (h.parent_mem (List.mem_of_find?_eq_some found)) (b.via :: chain)

/-- The walk back ends at the source, and has read the chain of the arrivals. -/
theorem walkBack_eq_chainTo {as : List Arrival} (h : Traced s source as) {node : String}
    (hn : node ∈ reached source as) {steps : Nat} (enough : as.length < steps)
    (chain : List Relationship) :
    walkBack source as steps node chain = some (chainTo as node ++ chain) := by
  induction h generalizing node steps chain with
  | nil =>
    obtain ⟨steps, rfl⟩ := Nat.exists_eq_add_one_of_ne_zero (Nat.ne_zero_of_lt enough)
    simp [walkBack, List.mem_singleton.mp hn, chainTo]
  | @cons a as before parent new step ih =>
    rcases List.mem_cons.mp hn with rfl | hn
    · obtain ⟨steps, rfl⟩ := Nat.exists_eq_add_one_of_ne_zero (Nat.ne_zero_of_lt enough)
      have away : (a.node == source) = false :=
        beq_false_of_ne fun same => new (same ▸ source_mem_reached)
      simp only [walkBack, away, Bool.false_eq_true, if_false, List.find?_cons, beq_self_eq_true]
      rw [walkBack_cons before new parent, ih parent (by simpa using enough), chainTo_cons_self,
        List.append_assoc, List.singleton_append]
    · rw [walkBack_cons before new hn, ih hn (Nat.lt_of_succ_lt enough),
        chainTo_cons_of_mem new hn]

/-! ### The search -/

/-- How far a node is from the source by its arrival. -/
def level (f : Frontier) (node : String) : Nat :=
  (chainTo f.arrivals node).length

/-- The state of the search while the steps of a node are tried, of which some are left. -/
structure Trying (s : Schema) (source goal current : String)
    (left : List (String × Relationship)) (f : Frontier) : Prop where
  seen : f.seen = reached source f.arrivals
  traced : Traced s source f.arrivals
  tried : current ∈ f.seen
  queued : ∀ n ∈ f.queue, n ∈ f.seen
  left_joins : ∀ step ∈ left, s.Joins current step.1 step.2
  /-- What a node joins has been seen, unless the node waits or its steps are being tried. -/
  closed : ∀ n ∈ f.seen, n ∉ f.queue → ∀ m r, s.Joins n m r →
    m ∈ f.seen ∨ n = current ∧ (m, r) ∈ left
  ordered : f.queue.Pairwise (level f · ≤ level f ·)
  above : ∀ n ∈ f.queue, level f current ≤ level f n
  span : ∀ n ∈ f.seen, level f n ≤ level f current + 1
  shortest : ∀ n ∈ f.seen, ∀ q, s.Chain source q n → level f n ≤ q.length
  unmet : goal ∉ f.seen

namespace Trying

variable {current node : String} {r : Relationship} {left : List (String × Relationship)}
  {f : Frontier}

/-- An unseen node is farther from the source than the node being tried. -/
theorem far (h : Trying s source goal current left f) (unseen : node ∉ f.seen)
    {q : List Relationship} (hq : s.Chain source q node) : level f current + 1 ≤ q.length := by
  have begun : source ∈ f.seen := h.seen ▸ source_mem_reached
  obtain ⟨p, m, n, r, hp, hm, hr, hn, shorter⟩ := hq.exit (· ∈ f.seen) begun unseen
  have near : level f current ≤ level f m := by
    by_cases waits : m ∈ f.queue
    · exact h.above m waits
    · rcases h.closed m hm waits n r hr with seen | ⟨rfl, -⟩
      · exact absurd seen hn
      · exact Nat.le_refl _
  have := h.shortest m hm p hp
  omega

/-- A step to a node that has been seen changes nothing. -/
theorem skip (h : Trying s source goal current ((node, r) :: left) f) (hn : node ∈ f.seen) :
    Trying s source goal current left f where
  __ := h
  left_joins step hs := h.left_joins step (List.mem_cons_of_mem _ hs)
  closed n seen waits m r' hr := by
    rcases h.closed n seen waits m r' hr with hm | ⟨rfl, hm⟩
    · exact .inl hm
    · rcases List.mem_cons.mp hm with same | hm
      · exact .inl ((Prod.mk.inj same).1 ▸ hn)
      · exact .inr ⟨rfl, hm⟩

/-- The arrivals with the one at a new node. -/
theorem arrive (h : Trying s source goal current ((node, r) :: left) f) (new : node ∉ f.seen) :
    Traced s source (⟨node, current, r⟩ :: f.arrivals) :=
  .cons h.traced (h.seen ▸ h.tried) (h.seen ▸ new) (h.left_joins _ List.mem_cons_self)

/-- The chain that is noted for a new node is a shortest one. -/
theorem arrive_shortest (h : Trying s source goal current ((node, r) :: left) f)
    (new : node ∉ f.seen) {q : List Relationship} (hq : s.Chain source q node) :
    (chainTo (⟨node, current, r⟩ :: f.arrivals) node).length ≤ q.length := by
  rw [chainTo_cons_self (a := ⟨node, current, r⟩), List.length_append]
  exact h.far new hq

/-- A step to a new node that is not the goal lets the node wait. -/
theorem step (h : Trying s source goal current ((node, r) :: left) f) (new : node ∉ f.seen)
    (other : node ≠ goal) :
    Trying s source goal current left
      ⟨node :: f.seen, ⟨node, current, r⟩ :: f.arrivals, f.queue ++ [node]⟩ := by
  have new' : node ∉ reached source f.arrivals := h.seen ▸ new
  have level_new : (chainTo (⟨node, current, r⟩ :: f.arrivals) node).length =
      level f current + 1 := by
    rw [chainTo_cons_self (a := ⟨node, current, r⟩), List.length_append]
    rfl
  have level_old : ∀ n ∈ f.seen,
      (chainTo (⟨node, current, r⟩ :: f.arrivals) n).length = level f n := fun n hn => by
    rw [chainTo_cons_of_mem (a := ⟨node, current, r⟩) new' (h.seen ▸ hn)]
    rfl
  have level_current := level_old current h.tried
  refine ⟨?_, h.arrive new, ?_, ?_, ?_, ?_, ?_, ?_, ?_, ?_, ?_⟩
  · exact congrArg (node :: ·) h.seen
  · exact List.mem_cons_of_mem _ h.tried
  · intro n hn
    rcases List.mem_append.mp hn with hn | hn
    · exact List.mem_cons_of_mem _ (h.queued n hn)
    · exact List.mem_cons.mpr (.inl (List.mem_singleton.mp hn))
  · exact fun step hs => h.left_joins step (List.mem_cons_of_mem _ hs)
  · intro n hn waits m r' hr
    have old : n ∈ f.seen := (List.mem_cons.mp hn).resolve_left fun same =>
      waits (List.mem_append_right _ (List.mem_singleton.mpr same))
    rcases h.closed n old (fun hq => waits (List.mem_append_left _ hq)) m r' hr with hm | ⟨rfl, hm⟩
    · exact .inl (List.mem_cons_of_mem _ hm)
    · rcases List.mem_cons.mp hm with same | hm
      · exact .inl (List.mem_cons.mpr (.inl (Prod.mk.inj same).1))
      · exact .inr ⟨rfl, hm⟩
  · simp only [level]
    refine List.pairwise_append.mpr ⟨?_, List.pairwise_singleton _ _, ?_⟩
    · refine h.ordered.imp_of_mem fun {a b} ha hb le => ?_
      rwa [level_old a (h.queued a ha), level_old b (h.queued b hb)]
    · intro a ha b hb
      rw [List.mem_singleton.mp hb, level_new, level_old a (h.queued a ha)]
      exact h.span a (h.queued a ha)
  · intro n hn
    simp only [level]
    rw [level_current]
    rcases List.mem_append.mp hn with hn | hn
    · rw [level_old n (h.queued n hn)]
      exact h.above n hn
    · rw [List.mem_singleton.mp hn, level_new]
      exact Nat.le_succ _
  · intro n hn
    simp only [level]
    rw [level_current]
    rcases List.mem_cons.mp hn with rfl | hn
    · exact Nat.le_of_eq level_new
    · rw [level_old n hn]
      exact h.span n hn
  · intro n hn q hq
    rcases List.mem_cons.mp hn with rfl | hn
    · exact h.arrive_shortest new hq
    · simp only [level]
      rw [level_old n hn]
      exact h.shortest n hn q hq
  · exact List.not_mem_cons_of_ne_of_not_mem other.symm h.unmet

/-- When the steps of a node have been tried, the next one that waits is. -/
theorem next {queue : List String} (h : Trying s source goal current [] f)
    (hq : f.queue = node :: queue) :
    Trying s source goal node (s.steps node) { f with queue := queue } := by
  have waits : node ∈ f.queue := hq ▸ List.mem_cons_self
  have ordered := hq ▸ h.ordered
  refine ⟨h.seen, h.traced, h.queued node waits, ?_, ?_, ?_, ?_, ?_, ?_, h.shortest, h.unmet⟩
  · exact fun n hn => h.queued n (hq ▸ List.mem_cons_of_mem _ hn)
  · exact fun step hs => mem_steps.mp hs
  · intro n hn away m r hr
    by_cases same : n = node
    · exact .inr ⟨same, mem_steps.mpr (same ▸ hr)⟩
    · have done : n ∉ f.queue := hq ▸ List.not_mem_cons_of_ne_of_not_mem same away
      exact .inl ((h.closed n hn done m r hr).resolve_right fun none => List.not_mem_nil none.2)
  · exact (List.pairwise_cons.mp ordered).2
  · exact (List.pairwise_cons.mp ordered).1
  · intro n hn
    have := h.span n hn
    have := h.above node waits
    simp only [level] at *
    omega

/-- When no node waits, the goal is not connected to the source. -/
theorem not_connected (h : Trying s source goal current [] f) (hq : f.queue = []) :
    ¬ s.Connected source goal := by
  intro connected
  obtain ⟨q, chain⟩ := connected_iff_exists_chain.mp connected
  have begun : source ∈ f.seen := h.seen ▸ source_mem_reached
  obtain ⟨-, m, n, r, -, hm, hr, hn, -⟩ := chain.exit (· ∈ f.seen) begun h.unmet
  rcases h.closed m hm (hq ▸ List.not_mem_nil) n r hr with seen | ⟨-, none⟩
  · exact hn seen
  · exact List.not_mem_nil none

end Trying

/-- Only the source has been seen, and it waits. -/
theorem trying_start (apart : source ≠ goal) :
    Trying s source goal source [] (.start source) where
  seen := rfl
  traced := .nil
  tried := List.mem_singleton_self _
  queued _ hn := hn
  left_joins _ hs := absurd hs List.not_mem_nil
  closed _ hn waits := absurd hn waits
  ordered := List.pairwise_singleton _ _
  above _ hn := Nat.le_of_eq (congrArg _ (List.mem_singleton.mp hn).symm)
  span _ _ := Nat.zero_le _
  shortest _ _ _ _ := Nat.zero_le _
  unmet := fun h => apart (List.mem_singleton.mp h).symm

/-- Arrivals that note a shortest chain to the goal. -/
structure Found (s : Schema) (source goal : String) (arrivals : List Arrival) : Prop where
  traced : Traced s source arrivals
  met : goal ∈ reached source arrivals
  shortest : ∀ q, s.Chain source q goal → (chainTo arrivals goal).length ≤ q.length

theorem found_of_tryStep {current : String} {left : List (String × Relationship)} {f : Frontier}
    {arrivals : List Arrival} (h : Trying s source goal current left f)
    (run : tryStep goal current left f = .error arrivals) : Found s source goal arrivals := by
  induction left generalizing f with
  | nil => exact nomatch run
  | cons step left ih =>
    obtain ⟨node, r⟩ := step
    simp only [tryStep, List.contains_iff_mem, beq_iff_eq] at run
    split at run
    case isTrue seen => exact ih (h.skip seen) run
    case isFalse new =>
      split at run
      case isTrue met =>
        subst met
        obtain rfl := Except.error.inj run
        exact ⟨h.arrive new, List.mem_cons_self, fun q hq => h.arrive_shortest new hq⟩
      case isFalse other => exact ih (h.step new other) run

/-- All steps of a node have been tried; every node that was met by them waits. -/
theorem trying_of_tryStep {current : String} {left : List (String × Relationship)} {f f' : Frontier}
    (h : Trying s source goal current left f) (run : tryStep goal current left f = .ok f') :
    Trying s source goal current [] f' ∧
      f'.seen.length + f.queue.length = f.seen.length + f'.queue.length := by
  induction left generalizing f with
  | nil =>
    obtain rfl := Except.ok.inj run
    exact ⟨h, rfl⟩
  | cons step left ih =>
    obtain ⟨node, r⟩ := step
    simp only [tryStep, List.contains_iff_mem, beq_iff_eq] at run
    split at run
    case isTrue seen => exact ih (h.skip seen) run
    case isFalse new =>
      split at run
      case isTrue => exact nomatch run
      case isFalse other =>
        obtain ⟨h', count⟩ := ih (h.step new other) run
        simp only [List.length_cons, List.length_append, List.length_nil] at count
        exact ⟨h', by omega⟩

/-- What the outcome of a search says of the source and the goal. -/
def Outcome.Tells (s : Schema) (source goal : String) : Outcome → Prop
  | .reached arrivals => Found s source goal arrivals
  | .exhausted => ¬ s.Connected source goal
  | .unfinished => False

/-- The search ends, and tells the truth.  No node waits twice, so the rounds left and the nodes
that need none any more are together as many as there can be nodes. -/
theorem search_tells {current : String} {rounds : Nat} {f : Frontier}
    (h : Trying s source goal current [] f)
    (enough : s.rounds + f.queue.length ≤ rounds + f.seen.length) :
    (s.search goal rounds f).Tells s source goal := by
  have few : f.seen.length ≤ 2 * s.relationships.length + 1 := by
    rw [h.seen, reached, List.length_append, List.length_map]
    exact Nat.succ_le_succ h.traced.length_le
  induction rounds generalizing current f with
  | zero =>
    rw [Schema.rounds] at enough
    omega
  | succ rounds ih =>
    rw [search]
    split
    case h_1 hq => exact h.not_connected hq
    case h_2 node queue hq =>
      split
      case h_1 arrivals run => exact found_of_tryStep (h.next hq) run
      case h_2 f' run =>
        obtain ⟨h', count⟩ := trying_of_tryStep (h.next hq) run
        rw [hq, List.length_cons] at enough
        simp only at count
        refine ih h' (by omega) ?_
        rw [h'.seen, reached, List.length_append, List.length_map]
        exact Nat.succ_le_succ h'.traced.length_le

/-- More rounds do not change the outcome of a search that has ended. -/
theorem search_add {rounds : Nat} {f : Frontier} (more : Nat)
    (ended : s.search goal rounds f ≠ .unfinished) :
    s.search goal (rounds + more) f = s.search goal rounds f := by
  induction rounds generalizing f with
  | zero => exact absurd rfl ended
  | succ rounds ih =>
    rw [Nat.add_right_comm]
    simp only [search] at ended ⊢
    split
    case h_1 => rfl
    case h_2 node queue hq =>
      simp only [hq] at ended
      split
      case h_1 => rfl
      case h_2 f' run =>
        simp only [run] at ended
        exact ih ended

theorem search_start_tells (apart : source ≠ goal) :
    (s.search goal s.rounds (.start source)).Tells s source goal :=
  search_tells (trying_start apart) (Nat.le_refl _)

/-- The search and the walk back end, however many rounds and steps they are allowed. -/
theorem search_ends (s : Schema) {source goal : String} (apart : source ≠ goal) :
    ∃ outcome, outcome ≠ .unfinished ∧
      (∀ rounds ≥ s.rounds, s.search goal rounds (.start source) = outcome) ∧
      ∀ arrivals, outcome = .reached arrivals → ∃ chain, ∀ steps > arrivals.length,
        walkBack source arrivals steps goal [] = some chain := by
  have tells := search_start_tells (s := s) apart
  have ended : s.search goal s.rounds (.start source) ≠ .unfinished := fun unfinished => by
    rw [unfinished] at tells
    exact tells
  refine ⟨s.search goal s.rounds (.start source), ended, fun rounds hr => ?_,
    fun arrivals reached => ?_⟩
  · obtain ⟨more, rfl⟩ := Nat.exists_eq_add_of_le hr
    exact search_add more ended
  · rw [reached] at tells
    exact ⟨_, fun steps enough => walkBack_eq_chainTo tells.traced tells.met enough []⟩

/-- The chain that is found is a shortest one, and it is found if there is any. -/
theorem shortestChain?_spec (s : Schema) {source goal : String} (apart : source ≠ goal) :
    (∃ p, s.shortestChain? source goal = some p ∧ s.Chain source p goal ∧
      ∀ q, s.Chain source q goal → p.length ≤ q.length) ∨
    (s.shortestChain? source goal = none ∧ ¬ s.Connected source goal) := by
  have tells := search_start_tells (s := s) apart
  unfold shortestChain?
  cases outcome : s.search goal s.rounds (.start source) with
  | reached arrivals =>
    rw [outcome] at tells
    refine .inl ⟨chainTo arrivals goal, ?_, tells.traced.chain tells.met, tells.shortest⟩
    simpa using walkBack_eq_chainTo tells.traced tells.met (Nat.lt_succ_self _) []
  | exhausted =>
    rw [outcome] at tells
    exact .inr ⟨rfl, tells⟩
  | unfinished =>
    rw [outcome] at tells
    exact tells.elim

/-! ### Paths between tables -/

/-- Between two tables with different nodes there is a path exactly if the nodes are connected; it
is a chain from node to node that takes no relationship twice, and none is shorter. -/
theorem joinPath_of_nodes (s : Schema) {source target a b : String}
    (different : s.tableKey source ≠ s.tableKey target) (ha : s.node? source = some a)
    (hb : s.node? target = some b) (apart : a ≠ b) :
    (∃ p, s.joinPath source target = .ok p ∧ s.Connected a b ∧ s.Chain a p b ∧ p.Nodup ∧
      ∀ q, s.Chain a q b → p.length ≤ q.length) ∨
    (s.joinPath source target = .error (.noPath source target) ∧ ¬ s.Connected a b) := by
  have different' : (s.tableKey source == s.tableKey target) = false := beq_false_of_ne different
  simp only [joinPath, different', Bool.false_eq_true, if_false, ha, hb]
  rcases s.shortestChain?_spec apart with ⟨p, found, chain, shortest⟩ | ⟨none, away⟩
  · rw [found]
    exact .inl ⟨p, rfl, connected_iff_exists_chain.mpr ⟨p, chain⟩, chain, chain.nodup shortest,
      shortest⟩
  · rw [none]
    exact .inr ⟨rfl, away⟩

/-- The search for a join path is correct: between tables with different nodes it finds a shortest
chain of active relationships, without repetition, exactly if the nodes are connected, and it ends;
a table without a node has no path, and is unknown if it is not registered. -/
theorem joinPath_correct (s : Schema) (source target : String)
    (different : s.tableKey source ≠ s.tableKey target) :
    (∀ a b, s.node? source = some a → s.node? target = some b → a ≠ b →
      ((∃ p, s.joinPath source target = .ok p) ↔ s.Connected a b) ∧
      (∀ p, s.joinPath source target = .ok p →
        s.Chain a p b ∧ p.Nodup ∧ ∀ q, s.Chain a q b → p.length ≤ q.length) ∧
      (¬ s.Connected a b → s.joinPath source target = .error (.noPath source target)) ∧
      ∃ outcome, outcome ≠ .unfinished ∧
        (∀ rounds ≥ s.rounds, s.search b rounds (.start a) = outcome) ∧
        ∀ arrivals, outcome = .reached arrivals → ∃ chain, ∀ steps > arrivals.length,
          walkBack a arrivals steps b [] = some chain) ∧
    (s.node? source = none → s.joinPath source target = .error
      (if (s.table? source).isSome then .noPath source target else .unknownTable source)) ∧
    ((s.node? source).isSome → s.node? target = none → s.joinPath source target = .error
      (if (s.table? target).isSome then .noPath source target else .unknownTable target)) := by
  have different' : (s.tableKey source == s.tableKey target) = false := beq_false_of_ne different
  refine ⟨fun a b ha hb apart => ⟨⟨?_, ?_⟩, ?_, ?_, s.search_ends apart⟩, fun none => ?_,
    fun some none => ?_⟩
  · rintro ⟨p, run⟩
    rcases s.joinPath_of_nodes different ha hb apart with ⟨-, -, connected, -⟩ | ⟨run', -⟩
    · exact connected
    · exact nomatch run'.symm.trans run
  · intro connected
    rcases s.joinPath_of_nodes different ha hb apart with ⟨p, run, -⟩ | ⟨-, away⟩
    · exact ⟨p, run⟩
    · exact absurd connected away
  · intro p run
    rcases s.joinPath_of_nodes different ha hb apart with ⟨p', run', -, facts⟩ | ⟨run', -⟩
    · obtain rfl := Except.ok.inj (run'.symm.trans run)
      exact facts
    · exact nomatch run'.symm.trans run
  · intro away
    rcases s.joinPath_of_nodes different ha hb apart with ⟨-, -, connected, -⟩ | ⟨run, -⟩
    · exact absurd connected away
    · exact run
  · simp only [joinPath, different', Bool.false_eq_true, if_false, none, missingNode]
  · obtain ⟨a, ha⟩ := Option.isSome_iff_exists.mp some
    simp only [joinPath, different', Bool.false_eq_true, if_false, ha, none, missingNode]

/-- Stores and products are joined through the sales, and not more directly. -/
theorem joinPath_store_product :
    ∃ p, retail.joinPath "Store" "Product" = .ok p ∧ p.length = 2 ∧
      retail.Chain "DIM_STORE" p "DIM_PRODUCT" ∧
      ∀ q, retail.Chain "DIM_STORE" q "DIM_PRODUCT" → 2 ≤ q.length := by
  obtain ⟨-, chain, -⟩ := (joinPath_correct retail "Store" "Product" (by decide +kernel)).1
    "DIM_STORE" "DIM_PRODUCT" (by decide +kernel) (by decide +kernel) (by decide)
  have two : (retail.joinPath "Store" "Product").toOption.map (·.length) = some 2 := by
    decide +kernel
  cases run : retail.joinPath "Store" "Product" with
  | error e => simp [run, Except.toOption] at two
  | ok p =>
    have length : p.length = 2 := by simpa [run, Except.toOption] using two
    obtain ⟨leads, -, shortest⟩ := chain p run
    exact ⟨p, rfl, length, leads, fun q hq => length ▸ shortest q hq⟩

end Schema

end MeasureSql
