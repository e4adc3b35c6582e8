import EventSim.Proofs.Scheduler.Mirrors
import Mathlib.Algebra.Order.Group.Multiset

/-!
# Schedulers as priority collections

A scheduler is used through six calls.  `Serves` says what a priority collection answers to each of
them and what is inside afterwards, where `replaces` tells the two ways apart in which an event can
be inserted under a key that is taken: the ordered map gives the stored event another payload and
keeps its key, the others keep both events.

* `serves_operate`: **every built-in scheduler serves every call as a priority collection.**
* `Mirrors.operate`: schedulers that hold the same events under different keys answer alike.
* `priority_collection` follows a fresh scheduler through any sequence of calls.
-/

namespace EventSim

namespace EventKey

variable {a b c : EventKey}

theorem Same.same_right (h : a.Same b) : c.Same a ↔ c.Same b :=
  ⟨fun g => g.trans h, fun g => g.trans h.symm⟩

end EventKey

/-- An event under a key that is taken gets the key that is stored. -/
theorem SortedMap.place_taken {α : Type} {l : List (Event α)} {e x : Event α}
    (o : SortedMap.Ordered l) (hx : x ∈ l) (h : e.key.Same x.key) :
    ∃ rest, l.Perm (x :: rest) ∧ (SortedMap.place e l).Perm (⟨x.key, e.payload⟩ :: rest) := by
  induction l with
  | nil => cases hx
  | cons y l ih =>
    obtain ⟨hy, hl⟩ := List.pairwise_cons.1 o
    rw [SortedMap.place]
    rcases List.mem_cons.1 hx with rfl | hx
    · have hb : ¬ e.key.Before x.key := by
        rw [h.before_left]
        exact EventKey.before_irrefl _
      rw [if_neg hb, if_pos h]
      exact ⟨l, .refl _, .refl _⟩
    · have hye : y.key.Before e.key := h.before_right.2 (hy x hx)
      have hs : ¬ e.key.Same y.key := fun hs => EventKey.before_irrefl y.key (hs.before_right.1 hye)
      rw [if_neg hye.asymm, if_neg hs]
      obtain ⟨rest, hp, hq⟩ := ih hl hx
      exact ⟨y :: rest, (hp.cons y).trans (.swap x y rest), (hq.cons y).trans (.swap _ y rest)⟩

namespace Scheduler

/-! ### Calls and answers -/

/-- A call on a scheduler. -/
inductive Operation (α : Type) where
  | insert (e : Event α)
  | removeNext
  | remove (key : EventKey)
  | peekNext
  | count
  | isEmpty

/-- What a scheduler answers. -/
inductive Answer (α : Type) where
  /-- The key of an inserted event. -/
  | stored (key : EventKey)
  /-- The event that is handed out, if there is one. -/
  | handed (e : Option (Event α))
  /-- The key of the next event. -/
  | next (key : Option EventKey)
  | count (n : Nat)
  | flag (b : Bool)

variable {α : Type}

/-- The answer to a call, and the scheduler after it. -/
def operate (s : Scheduler α) : Operation α → Answer α × Scheduler α
  | .insert e => (.stored e.key, s.insert e)
  | .removeNext =>
    match s.pop with
    | none => (.handed none, s)
    | some (e, rest) => (.handed (some e), rest)
  | .remove key =>
    let r := s.remove key
    (.handed r.1, r.2)
  | .peekNext => (.next s.peek, s)
  | .count => (.count s.size, s)
  | .isEmpty => (.flag s.isEmpty, s)

/-- The answers to calls that follow one another, and the scheduler after them. -/
def operateAll (s : Scheduler α) : List (Operation α) → List (Answer α) × Scheduler α
  | [] => ([], s)
  | o :: rest =>
    let r := (s.operate o).2.operateAll rest
    ((s.operate o).1 :: r.1, r.2)

/-- The events inside, in no order. -/
def inside (s : Scheduler α) : Multiset (Event α) := s.toList

/-- The events that calls insert. -/
def insertedIn (l : List (Operation α)) : Multiset (Event α) :=
  l.filterMap fun
    | .insert e => some e
    | _ => none

/-- The events that answers hand out. -/
def handedIn (l : List (Answer α)) : Multiset (Event α) :=
  l.filterMap fun
    | .handed e => e
    | _ => none

/-- No call inserts an event under a key that is taken. -/
def Untaken (s : Scheduler α) : List (Operation α) → Prop
  | [] => True
  | o :: rest =>
    (∀ e, o = .insert e → ∀ x ∈ s.toList, ¬ e.key.Same x.key) ∧ (s.operate o).2.Untaken rest

/-! ### Priority collections -/

/-- What a priority collection answers to a call, given the events inside before and after it. -/
inductive Serves (replaces : Prop) :
    Multiset (Event α) → Operation α → Answer α → Multiset (Event α) → Prop
  | inserted {inside : Multiset (Event α)} {e : Event α} :
      (replaces → ∀ x ∈ inside, ¬ e.key.Same x.key) →
      Serves replaces inside (.insert e) (.stored e.key) (e ::ₘ inside)
  /-- The payload is replaced, the stored key stays. -/
  | replaced {rest : Multiset (Event α)} {e x : Event α} :
      replaces → e.key.Same x.key →
      Serves replaces (x ::ₘ rest) (.insert e) (.stored e.key) (⟨x.key, e.payload⟩ ::ₘ rest)
  | taken {rest : Multiset (Event α)} {e : Event α} :
      (∀ x ∈ e ::ₘ rest, ¬ x.key.Before e.key) →
      Serves replaces (e ::ₘ rest) .removeNext (.handed (some e)) rest
  | exhausted : Serves replaces 0 .removeNext (.handed none) 0
  | removed {rest : Multiset (Event α)} {e : Event α} {key : EventKey} :
      e.key.Same key → Serves replaces (e ::ₘ rest) (.remove key) (.handed (some e)) rest
  | missed {inside : Multiset (Event α)} {key : EventKey} :
      (∀ x ∈ inside, ¬ x.key.Same key) →
      Serves replaces inside (.remove key) (.handed none) inside
  | announced {inside : Multiset (Event α)} {e : Event α} :
      e ∈ inside → (∀ x ∈ inside, ¬ x.key.Before e.key) →
      Serves replaces inside .peekNext (.next (some e.key)) inside
  | unannounced : Serves replaces 0 .peekNext (.next none) 0
  | counted (inside : Multiset (Event α)) :
      Serves replaces inside .count (.count inside.card) inside
  | emptied : Serves replaces 0 .isEmpty (.flag true) 0
  | occupied {inside : Multiset (Event α)} :
      inside ≠ 0 → Serves replaces inside .isEmpty (.flag false) inside

/-- What a priority collection answers to calls that follow one another. -/
inductive ServesAll (replaces : Prop) :
    Multiset (Event α) → List (Operation α) → List (Answer α) → Multiset (Event α) → Prop
  | nil (inside : Multiset (Event α)) : ServesAll replaces inside [] [] inside
  | cons {inside between after : Multiset (Event α)} {o : Operation α} {a : Answer α}
      {l : List (Operation α)} {answers : List (Answer α)} :
      Serves replaces inside o a between → ServesAll replaces between l answers after →
      ServesAll replaces inside (o :: l) (a :: answers) after

/-- A collection that replaces nothing gives out what was put in and keeps the rest. -/
theorem Serves.balance {replaces : Prop} {inside after : Multiset (Event α)} {o : Operation α}
    {a : Answer α} (h : Serves replaces inside o a after) (hr : ¬ replaces) :
    insertedIn [o] + inside = handedIn [a] + after := by
  cases h with
  | @inserted inside e hfree =>
    show {e} + inside = 0 + e ::ₘ inside
    rw [Multiset.singleton_add, zero_add]
  | replaced hr' => exact absurd hr' hr
  | @taken after e hfirst =>
    show 0 + e ::ₘ after = {e} + after
    rw [Multiset.singleton_add, zero_add]
  | @removed after e key hs =>
    show 0 + e ::ₘ after = {e} + after
    rw [Multiset.singleton_add, zero_add]
  | _ => rfl

theorem insertedIn_cons (o : Operation α) (l : List (Operation α)) :
    insertedIn (o :: l) = insertedIn [o] + insertedIn l := by
  rw [insertedIn, insertedIn, insertedIn, Multiset.coe_add, ← List.filterMap_append]
  rfl

theorem handedIn_cons (a : Answer α) (l : List (Answer α)) :
    handedIn (a :: l) = handedIn [a] + handedIn l := by
  rw [handedIn, handedIn, handedIn, Multiset.coe_add, ← List.filterMap_append]
  rfl

theorem ServesAll.balance {replaces : Prop} {inside after : Multiset (Event α)}
    {l : List (Operation α)} {answers : List (Answer α)}
    (h : ServesAll replaces inside l answers after) (hr : ¬ replaces) :
    insertedIn l + inside = handedIn answers + after := by
  induction h with
  | nil inside => rfl
  | @cons inside between after o a l answers ho _ ih =>
    have hb := ho.balance hr
    rw [insertedIn_cons, handedIn_cons]
    calc insertedIn [o] + insertedIn l + inside
        = insertedIn l + (insertedIn [o] + inside) := by rw [add_comm (insertedIn [o]), add_assoc]
      _ = handedIn [a] + (insertedIn l + between) := by rw [hb, add_left_comm]
      _ = handedIn [a] + handedIn answers + after := by rw [ih, add_assoc]

/-! ### The built-in schedulers -/

variable {s : Scheduler α} {e : Event α}

/-- The key that is announced is that of the event that is next. -/
theorem Ordered.peek_eq (o : s.Ordered) : s.peek = s.pop.map fun r => r.1.key := by
  cases s with
  | map m => cases hm : m.events <;> simp [peek, SortedMap.peek, Scheduler.pop, SortedMap.pop, hm]
  | heap h =>
    cases hp : h.pop with
    | none =>
      have hnil : h.entries = #[] := Array.toList_eq_nil_iff.1 (BinaryHeap.pop_eq_none.1 hp)
      simp [peek, BinaryHeap.peek, Scheduler.pop, hp, hnil]
    | some r =>
      obtain ⟨x, rest⟩ := r
      have hroot : h.entries[0]? = some x := by
        rcases BinaryHeap.pop_cases hp with ⟨h1, -⟩ | ⟨between, last, h1, -⟩
        · rw [h1]
          rfl
        · rw [h1, ← Array.append_push, Array.getElem?_append_left Nat.one_pos]
          rfl
      simp [peek, BinaryHeap.peek, Scheduler.pop, hp, hroot]
  | list l =>
    cases hl : l.events <;> simp [peek, SortedList.peek, Scheduler.pop, SortedList.pop, hl]
  | pile q => cases o

/-- What is announced is what is handed out next. -/
theorem Ordered.announces (o : s.Ordered) {next : Option (Event α)}
    (h : (s.operate .removeNext).1 = .handed next) :
    (s.operate .peekNext).1 = .next (next.map Event.key) := by
  simp only [Scheduler.operate] at h ⊢
  rw [o.peek_eq]
  cases hp : s.pop with
  | none =>
    rw [hp] at h
    cases h
    rfl
  | some r =>
    rw [hp] at h
    cases h
    rfl

/-- The context of a key plays no part in a removal. -/
theorem remove_congr {key key' : EventKey} (h : key.Same key') : s.remove key = s.remove key' := by
  have hq (x : Event α) : decide (x.key.Same key) = decide (x.key.Same key') :=
    decide_eq_decide.2 h.same_right
  cases s with
  | map m => simp only [remove, SortedMap.remove, hq]
  | heap q => simp only [remove, BinaryHeap.remove, hq]
  | list l => simp only [remove, SortedList.remove, SortedList.find?, SortedList.lastUnder?, hq]
  | pile q => simp only [remove, Pile.remove, hq]

@[simp] theorem backend_insert (s : Scheduler α) (e : Event α) :
    (s.insert e).backend = s.backend := by
  cases s <;> rfl

theorem backend_pop {rest : Scheduler α} (h : s.pop = some (e, rest)) :
    rest.backend = s.backend := by
  cases s with
  | map m =>
    obtain ⟨l, -, rfl⟩ := cons_of_pop_map h
    rfl
  | heap q =>
    obtain ⟨r, -, rfl⟩ := pop_of_pop_heap h
    rfl
  | list q =>
    obtain ⟨r, -, rfl⟩ := cons_of_pop_list h
    rfl
  | pile q =>
    obtain ⟨⟨x, r⟩, hp, hr⟩ := Option.map_eq_some_iff.1 h
    cases hr
    obtain ⟨⟨y, l⟩, -, hl⟩ := Option.map_eq_some_iff.1 hp
    cases hl
    rfl

@[simp] theorem backend_remove (s : Scheduler α) (key : EventKey) :
    (s.remove key).2.backend = s.backend := by
  cases s with
  | pile q =>
    simp only [remove, Pile.remove]
    split <;> rfl
  | _ => rfl

theorem serves_insert (o : s.Ordered) (e : Event α) :
    Serves (s.backend = .map) s.inside (.insert e) (.stored e.key) (s.insert e).inside := by
  by_cases htaken : ∃ x ∈ s.toList, e.key.Same x.key
  · cases s with
    | map m =>
      obtain ⟨x, hx, hs⟩ := htaken
      obtain ⟨rest, hp, hq⟩ := SortedMap.place_taken o hx hs
      have hbefore : (map m).inside = x ::ₘ (rest : Multiset (Event α)) := Multiset.coe_eq_coe.2 hp
      have hafter : ((map m).insert e).inside =
          ⟨x.key, e.payload⟩ ::ₘ (rest : Multiset (Event α)) := Multiset.coe_eq_coe.2 hq
      rw [hbefore, hafter]
      exact .replaced rfl hs
    | heap q =>
      have hafter : ((heap q).insert e).inside = e ::ₘ (heap q).inside :=
        Multiset.coe_eq_coe.2 (BinaryHeap.perm_insert q e)
      rw [hafter]
      exact .inserted fun h => by cases h
    | list l =>
      have hafter : ((list l).insert e).inside = e ::ₘ (list l).inside :=
        Multiset.coe_eq_coe.2 (SortedList.perm_insert l e)
      rw [hafter]
      exact .inserted fun h => by cases h
    | pile q => cases o
  · have hfree : ∀ x ∈ s.toList, ¬ e.key.Same x.key := fun x hx hs => htaken ⟨x, hx, hs⟩
    have hafter : (s.insert e).inside = e ::ₘ s.inside := Multiset.coe_eq_coe.2 (perm_insert hfree)
    rw [hafter]
    exact .inserted fun _ x hx => hfree x (Multiset.mem_coe.1 hx)

theorem inside_of_pop {rest : Scheduler α} (h : s.pop = some (e, rest)) :
    s.inside = e ::ₘ rest.inside := Multiset.coe_eq_coe.2 (perm_pop h)

theorem inside_of_pop_none (h : s.pop = none) : s.inside = 0 := by
  rw [inside, pop_eq_none.1 h, Multiset.coe_nil]

/-- **Every built-in scheduler serves every call as a priority collection.** -/
theorem serves_operate (o : s.Ordered) (x : Operation α) :
    Serves (s.backend = .map) s.inside x (s.operate x).1 (s.operate x).2.inside := by
  cases x with
  | insert e => exact serves_insert o e
  | removeNext =>
    cases hp : s.pop with
    | none =>
      simp only [operate, hp, inside_of_pop_none hp]
      exact .exhausted
    | some r =>
      obtain ⟨e, rest⟩ := r
      have hi := inside_of_pop hp
      simp only [operate, hp]
      rw [hi]
      refine .taken fun x hx => o.pop_first hp x ?_
      rw [← hi] at hx
      exact Multiset.mem_coe.1 hx
  | remove key =>
    have hperm := perm_remove s key
    cases hr : (s.remove key).1 with
    | none =>
      rw [hr] at hperm
      have hi : (s.remove key).2.inside = s.inside := Multiset.coe_eq_coe.2 hperm.symm
      simp only [operate, hr, hi]
      exact .missed fun x hx => o.remove_none hr x (Multiset.mem_coe.1 hx)
    | some e =>
      rw [hr] at hperm
      have hi : s.inside = e ::ₘ (s.remove key).2.inside := Multiset.coe_eq_coe.2 hperm
      simp only [operate, hr]
      rw [hi]
      exact .removed (remove_some hr)
  | peekNext =>
    cases hp : s.pop with
    | none =>
      simp only [operate, o.peek_eq, hp, inside_of_pop_none hp]
      exact .unannounced
    | some r =>
      obtain ⟨e, rest⟩ := r
      have he : e ∈ s.inside := by
        rw [inside_of_pop hp]
        exact Multiset.mem_cons_self _ _
      simp only [operate, o.peek_eq, hp]
      exact .announced he fun x hx => o.pop_first hp x (Multiset.mem_coe.1 hx)
  | count => exact .counted s.inside
  | isEmpty =>
    simp only [operate, isEmpty]
    cases hl : s.toList with
    | nil =>
      have hi : s.inside = 0 := by
        rw [inside, hl, Multiset.coe_nil]
      rw [hi]
      exact .emptied
    | cons y l =>
      refine .occupied fun hi => ?_
      have hnil := (Multiset.coe_eq_zero _).1 hi
      rw [hl] at hnil
      cases hnil

theorem Ordered.operate (o : s.Ordered) (x : Operation α) : (s.operate x).2.Ordered := by
  cases x with
  | insert e => exact o.insert e
  | removeNext =>
    cases hp : s.pop with
    | none => simpa only [Scheduler.operate, hp] using o
    | some r =>
      obtain ⟨e, rest⟩ := r
      simpa only [Scheduler.operate, hp] using o.pop hp
  | remove key => exact o.remove key
  | _ => exact o

theorem backend_operate (s : Scheduler α) (x : Operation α) :
    (s.operate x).2.backend = s.backend := by
  cases x with
  | insert e => exact backend_insert s e
  | removeNext =>
    cases hp : s.pop with
    | none => simp only [operate, hp]
    | some r =>
      obtain ⟨e, rest⟩ := r
      simpa only [operate, hp] using backend_pop hp
  | remove key => exact backend_remove s key
  | _ => rfl

/-- Calls that follow one another keep a scheduler in its order and are served one by one. -/
theorem Ordered.operateAll (o : s.Ordered) (l : List (Operation α)) :
    (s.operateAll l).2.Ordered ∧
      ServesAll (s.backend = .map) s.inside l (s.operateAll l).1 (s.operateAll l).2.inside := by
  induction l generalizing s with
  | nil => exact ⟨o, .nil _⟩
  | cons x l ih =>
    obtain ⟨ho, hs⟩ := ih (o.operate x)
    rw [backend_operate] at hs
    exact ⟨ho, .cons (serves_operate o x) hs⟩

/-! ### Different backends -/

variable {t : Scheduler α}

/-- Schedulers that hold the same events under different keys answer alike. -/
theorem Mirrors.operate (m : Mirrors id s t) {x : Operation α}
    (hx : ∀ e, x = .insert e → ∀ y ∈ s.toList, ¬ e.key.Same y.key) :
    (t.operate x).1 = (s.operate x).1 ∧ Mirrors id (s.operate x).2 (t.operate x).2 := by
  have hlen : t.toList.length = s.toList.length := by
    rw [m.perm.length_eq, List.length_map]
  cases x with
  | insert e => exact ⟨rfl, m.insert (hx e rfl)⟩
  | removeNext =>
    cases hp : s.pop with
    | none =>
      simp only [Scheduler.operate, hp, m.pop_none hp]
      exact ⟨trivial, m⟩
    | some r =>
      obtain ⟨e, rest⟩ := r
      obtain ⟨t', hp', hm⟩ := m.pop hp
      simp only [Scheduler.operate, hp, hp']
      exact ⟨rfl, hm⟩
  | remove key =>
    obtain ⟨hr, hm⟩ := m.remove key
    refine ⟨?_, hm⟩
    show Answer.handed _ = Answer.handed _
    rw [hr]
    cases (s.remove key).1 <;> rfl
  | peekNext =>
    refine ⟨?_, m⟩
    simp only [Scheduler.operate, m.ordered.peek_eq, m.ordered'.peek_eq]
    cases hp : s.pop with
    | none => rw [m.pop_none hp]
    | some r =>
      obtain ⟨e, rest⟩ := r
      obtain ⟨t', hp', -⟩ := m.pop hp
      rw [hp']
      rfl
  | count =>
    refine ⟨?_, m⟩
    simp only [Scheduler.operate, size, hlen]
  | isEmpty =>
    have hempty : t.toList.isEmpty = s.toList.isEmpty := by
      rw [Bool.eq_iff_iff, List.isEmpty_iff_length_eq_zero, List.isEmpty_iff_length_eq_zero, hlen]
    exact ⟨congrArg Answer.flag hempty, m⟩

theorem Mirrors.operateAll {l : List (Operation α)} (m : Mirrors id s t) (hl : s.Untaken l) :
    (t.operateAll l).1 = (s.operateAll l).1 := by
  induction l generalizing s t with
  | nil => rfl
  | cons x l ih =>
    obtain ⟨hx, hl⟩ := hl
    obtain ⟨ha, hm⟩ := m.operate hx
    simp only [Scheduler.operateAll, ha, ih hm hl]

/-- **Every built-in scheduler is a priority collection**, for any calls in any order.  Each call is
answered as such a collection answers it; unless payloads are replaced, what was inserted is what
was handed out and what is inside; the key that is announced is that of the event that comes next;
and the context of a key plays no part in a removal.  If no call inserts an event under a key that
is taken, the backends answer the same. -/
theorem priority_collection {b : Backend} (hb : b.isBuiltIn = true) (l : List (Operation α)) :
    let r := (empty b : Scheduler α).operateAll l
    ServesAll (b = .map) 0 l r.1 r.2.inside ∧
    (b ≠ .map → insertedIn l = handedIn r.1 + r.2.inside) ∧
    (∀ e, (r.2.operate .removeNext).1 = .handed e →
      (r.2.operate .peekNext).1 = .next (e.map Event.key)) ∧
    (∀ key key', key.Same key' → r.2.operate (.remove key) = r.2.operate (.remove key')) ∧
    ((empty b : Scheduler α).Untaken l →
      ∀ b', b'.isBuiltIn = true → ((empty b' : Scheduler α).operateAll l).1 = r.1) := by
  intro r
  have hinside : (empty b : Scheduler α).inside = 0 := by
    rw [inside, toList_empty, Multiset.coe_nil]
  have hbackend : (empty b : Scheduler α).backend = b := by cases b <;> rfl
  obtain ⟨ho, hs⟩ := (ordered_empty hb).operateAll l
  rw [hinside, hbackend] at hs
  refine ⟨hs, fun hne => ?_, fun e he => ?_, fun key key' h => ?_, fun hl b' hb' => ?_⟩
  · have hbalance := hs.balance hne
    rwa [add_zero] at hbalance
  · exact ho.announces he
  · simp only [operate, remove_congr h]
  · exact (Mirrors.empty (g := id) hb hb').operateAll hl

/-- Two events under one key, a search under another context, and what comes out next. -/
def twinCalls : List (Operation Nat) :=
  let key (context : Context) : EventKey := ⟨.zero, 1, context⟩
  [.insert ⟨key 5, 10⟩, .insert ⟨key 6, 20⟩, .remove (key 7), .removeNext, .isEmpty]

/-- The sorted list keeps both events and hands each out with its own context. -/
theorem priority_collection_twins :
    Backend.list.isBuiltIn = true ∧
    ((empty .list : Scheduler Nat).operateAll twinCalls).1 =
      [.stored ⟨.zero, 1, 5⟩, .stored ⟨.zero, 1, 6⟩, .handed (some ⟨⟨.zero, 1, 5⟩, 10⟩),
        .handed (some ⟨⟨.zero, 1, 6⟩, 20⟩), .flag true] ∧
    insertedIn twinCalls = handedIn ((empty .list : Scheduler Nat).operateAll twinCalls).1 +
      ((empty .list : Scheduler Nat).operateAll twinCalls).2.inside :=
  ⟨rfl, rfl, (priority_collection (b := .list) rfl twinCalls).2.1 (by decide)⟩

end Scheduler

end EventSim
