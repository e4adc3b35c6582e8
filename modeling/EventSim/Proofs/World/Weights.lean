import EventSim.Proofs.World.Sound
import EventSim.Weight

/-!
# What calls weigh

No deed makes weight out of nothing: what it hands out and what is left of the kernel weigh no more
than the kernel before and what the deed took in.  So all that a call does to a world, the storing
of events apart, leaves its weight as it is or makes it less, and `weight_perform` can say of every
command that runs nothing: **the world and the command together get lighter.**
-/

namespace EventSim

section Totals

variable {α : Type} {f : α → Nat}

@[simp] theorem total_nil : total f [] = 0 := rfl

@[simp] theorem total_cons (x : α) (l : List α) : total f (x :: l) = f x + total f l := rfl

theorem total_congr {g : α → Nat} {l : List α} (h : ∀ x ∈ l, f x = g x) : total f l = total g l :=
  List.foldr_ext _ _ _ fun x hx n => congrArg (· + n) (h x hx)

theorem total_eq_zero {l : List α} (h : ∀ x ∈ l, f x = 0) : total f l = 0 := by
  induction l with
  | nil => rfl
  | cons x l ih =>
    rw [total_cons, h x List.mem_cons_self, ih fun y hy => h y (List.mem_cons_of_mem x hy)]

theorem total_map {β : Type} (g : β → α) (l : List β) :
    total f (l.map g) = total (fun y => f (g y)) l := by
  rw [total, List.foldr_map]
  rfl

@[simp] theorem total_append (l l' : List α) : total f (l ++ l') = total f l + total f l' := by
  induction l with
  | nil => exact (Nat.zero_add _).symm
  | cons x l ih => rw [List.cons_append, total_cons, total_cons, ih, Nat.add_assoc]

theorem total_perm {l l' : List α} (h : l.Perm l') : total f l = total f l' := by
  induction h with
  | nil => rfl
  | cons x h ih => rw [total_cons, total_cons, ih]
  | swap x y l => simp only [total_cons, Nat.add_left_comm]
  | trans h h' ih ih' => exact ih.trans ih'

theorem total_sublist {l l' : List α} (h : l.Sublist l') : total f l ≤ total f l' := by
  induction h with
  | slnil => exact Nat.le_refl _
  | cons x h ih => exact Nat.le_add_left_of_le ih
  | cons_cons x h ih => exact Nat.add_le_add_left ih _

/-- What is among the members of a list, in whatever order, weighs no more than the list. -/
theorem total_le {l l' : List α} (h : l.Subperm l') : total f l ≤ total f l' := by
  obtain ⟨l₁, hp, hs⟩ := h
  exact Nat.le_trans (Nat.le_of_eq (total_perm hp).symm) (total_sublist hs)

/-- One member in another's place. -/
theorem total_set {e : α} (l : List α) (i : Nat) (hi : l[i]? = some e) (e' : α) :
    total f (l.set i e') + f e = total f l + f e' := by
  induction l generalizing i with
  | nil => cases hi
  | cons y l ih =>
    cases i with
    | zero =>
      cases hi
      simp only [List.set_cons_zero, total_cons]
      omega
    | succ i =>
      have := ih i hi
      simp only [List.set_cons_succ, total_cons]
      omega

end Totals

/-- The weight of payloads. -/
def weightOf (l : List (Payload Action)) : Nat := total Payload.weight l

@[simp] theorem weightOf_nil : weightOf [] = 0 := rfl

@[simp] theorem weightOf_cons (x : Payload Action) (l : List (Payload Action)) :
    weightOf (x :: l) = x.weight + weightOf l := rfl

theorem weightOf_append (l l' : List (Payload Action)) :
    weightOf (l ++ l') = weightOf l + weightOf l' := total_append l l'

theorem weightOf_le {l l' : List (Payload Action)} (h : l.Subperm l') :
    weightOf l ≤ weightOf l' := total_le h

theorem Payload.weight_pos (x : Payload Action) : 1 ≤ x.weight := by
  cases x <;> simp [Payload.weight]

/-- Only its body makes an action heavy. -/
theorem Action.weight_eq (a : Action) : a.weight = bodyWeight a.body + 1 := by
  cases a with
  | mk tag reporting target body => rw [Action.weight, Action.body]

theorem Command.weight_pos (c : Command) : 1 ≤ c.weight := by
  cases c <;> simp only [Command.weight] <;> omega

/-! ### Deeds -/

namespace Kernel

variable {k k' : Kernel Action} {d : Deed Action}

theorem weight_eq (k : Kernel Action) : k.weight = weightOf k.load := by
  rw [load, weightOf_append, weightOf, weightOf, Scheduler.payloads, total_map, total_map]
  rfl

/-- **No deed makes weight out of nothing.** -/
theorem Does.weight (hd : k.Does d k') :
    weightOf d.handed + k'.weight ≤ weightOf d.taken + k.weight := by
  rw [weight_eq, weight_eq, ← weightOf_append, ← weightOf_append]
  exact weightOf_le hd.load

end Kernel

/-! ### Happenings -/

/-- Nothing is stored by it. -/
def Happening.Light : Happening → Prop
  | .did _ d => d.taken = []
  | _ => True

namespace World

variable {w w' : World} {id : KernelId} {x : Happening}

/-- A kernel in its place is part of the weight of its world. -/
theorem weight_setEngine {e : Engine Action} (h : w.engine? id = some e) (e' : Engine Action) :
    (w.setEngine id e').weight + e.weight = w.weight + e'.weight :=
  total_set w.engines id h e'

theorem weight_setEngine_of_eq {e e' : Engine Action} (h : w.engine? id = some e)
    (he : e'.weight = e.weight) : (w.setEngine id e').weight = w.weight := by
  have hset := weight_setEngine h e'
  omega

theorem weight_aside (h : w.Aside w') : w'.weight = w.weight := by
  rw [weight, weight, h.engines]

/-- What a deed makes of the weight of the world. -/
theorem weight_did {watched : Bool} {k k' : Kernel Action} {d : Deed Action}
    (hk : w.engine? id = some (.builtIn watched k)) (hd : k.Does d k') :
    weightOf d.handed + (w.setEngine id (.builtIn watched k')).weight ≤
      weightOf d.taken + w.weight := by
  have h := weight_setEngine hk (.builtIn watched k')
  have h' := hd.weight
  simp only [Engine.weight] at h
  omega

theorem weight_attach (w : World) (id : KernelId) (b : Backend) :
    (w.attach id b).weight ≤ w.weight := by
  refine attach_induction (I := fun v => v.weight ≤ w.weight) (Nat.le_refl _)
    (fun v v' ha hv => ?_) fun v watched k hk hv => ?_
  · rw [weight_aside ha]
    exact hv
  · have h := weight_did hk (.attached k b)
    simp only [Deed.handed, Deed.taken, weightOf_nil] at h
    omega

theorem Happens.weight_le (h : w.Happens x w') (hx : x.Light) : w'.weight ≤ w.weight := by
  cases h with
  | aside ha => exact Nat.le_of_eq (weight_aside ha)
  | made spec =>
    have : (Engine.make w.engines.length spec : Engine Action).weight = 0 := by cases spec <;> rfl
    simp [weight, this]
  | did hk hd hp =>
    have h := weight_did hk hd
    rw [show _ = [] from hx, weightOf_nil] at h
    omega
  | issued name hk hi =>
    have h := weight_did hk (.issued hi)
    rw [show _ = [] from hx, weightOf_nil] at h
    show (w.setEngine _ _).weight ≤ w.weight
    omega
  | occupied hs hb => exact weight_attach { w with slot := some _ } _ _
  | configured hb => exact weight_attach w _ _
  | _ => exact Nat.le_refl _

theorem weight_le_of_evolves (h : Evolves Happening.Light w w') : w'.weight ≤ w.weight := by
  refine h.keeps (I := fun v => v.weight ≤ w.weight) (fun v x v' hx hl hv => ?_) (Nat.le_refl _)
  exact Nat.le_trans (hx.weight_le hl) hv

theorem Building.light (h : Building x) : x.Light := by
  cases x <;> first | exact h.elim | trivial

theorem weight_reach {t : Target} (h : w.reach t = .ok (id, w')) : w'.weight ≤ w.weight :=
  weight_le_of_evolves ((evolves_reach h).mono fun _ => Building.light)

/-! ### Commands -/

/-- A kernel that accepts an action gets heavier by the event that carries it. -/
theorem weight_accepts {watched : Bool} {k k' : Kernel Action} {d : Deed Action} {h : Handle}
    {a : Action} (ha : Kernel.Accepts a d) (hk : w.engine? id = some (.builtIn watched k))
    (hi : k.Issues d h k') :
    (w.setEngine id (.builtIn watched k')).weight ≤ w.weight + a.weight + 1 := by
  have h := weight_did hk (.issued hi)
  cases ha <;> simp only [Deed.taken, weightOf_cons, weightOf_nil, Payload.weight] at h <;> omega

theorem weight_schedule (w : World) (t : Target) (timing : Timing) (name : HandleName)
    (a : Action) : (w.schedule t timing name a).2.weight ≤ w.weight + a.weight + 1 := by
  unfold schedule
  split
  · have := weight_aside (aside_release w a)
    dsimp only
    omega
  · rename_i id v hr
    have hv := weight_reach hr
    split
    · dsimp only
      omega
    · rename_i e he
      dsimp only
      have hu : v.Aside (if t = .facade then v.traced e timing else v) := by
        split
        · exact aside_traced v e timing
        · exact .refl v
      generalize (if t = .facade then v.traced e timing else v) = u at hu ⊢
      have hwu := weight_aside hu
      have heu : u.engine? id = some e := by
        rw [engine?, hu.engines]
        exact he
      cases e with
      | builtIn watched k =>
        cases hs : k.schedule timing a with
        | ok r =>
          obtain ⟨h, k'⟩ := r
          obtain ⟨d, ha, hi⟩ := Kernel.issues_of_schedule hs
          have h := weight_accepts ha heu hi
          simp only [Engine.schedule, hs]
          show (u.setEngine id (.builtIn watched k')).weight ≤ _
          omega
        | error error =>
          simp only [Engine.schedule, hs, setEngine_of_engine? heu]
          have := weight_aside (aside_releaseAll u [a])
          omega
      | fixed k =>
        simp only [Engine.schedule, setEngine_of_engine? heu]
        have : (u.releaseAll [a]).weight = u.weight := weight_aside (aside_releaseAll u [a])
        show (u.releaseAll [a]).weight ≤ _
        omega

theorem weight_numbered (a : Action) (i : Nat) : (a.numbered i).weight = a.weight := by
  rw [Action.weight_eq, Action.weight_eq]
  rfl

theorem weight_scheduleEach (t : Target) (name : Option HandleName) (a : Action)
    (delays : List Time) (w : World) (i : Nat) :
    (w.scheduleEach t name a i delays).2.weight ≤
      w.weight + delays.length * (a.weight + 1) := by
  induction delays generalizing w i with
  | nil => simp [scheduleEach]
  | cons delay rest ih =>
    have h := weight_schedule w t (.after delay) (name.getD (.word ((a.numbered i).tag.getD "")))
      (a.numbered i)
    rw [weight_numbered] at h
    rw [List.length_cons, Nat.succ_mul]
    unfold scheduleEach
    dsimp only
    split
    · rename_i hs
      rw [hs] at h
      dsimp only at h ⊢
      omega
    · rename_i r v hs
      rw [hs] at h
      dsimp only at h
      have h' := ih v (i + 1)
      split <;> rename_i hr <;> rw [hr] at h' <;> dsimp only at h' ⊢ <;> omega

theorem weight_stopAfter (w : World) (t : Target) (delay : Time) (name : HandleName) :
    (w.stopAfter t delay name).2.weight ≤ w.weight + 1 := by
  unfold stopAfter onReached
  split
  · exact Nat.le_succ _
  · rename_i id v hr
    have hv := weight_reach hr
    split
    · exact Nat.le_succ_of_le hv
    · rename_i e he
      cases e with
      | builtIn watched k =>
        cases hs : k.stopAfter delay with
        | ok r =>
          obtain ⟨h, k'⟩ := r
          obtain ⟨key, hi⟩ := Kernel.issues_of_stopAfter hs
          have h := weight_did he (.issued hi)
          simp only [Deed.taken, weightOf_cons, weightOf_nil, Payload.weight] at h
          simp only [Engine.stopAfter, hs]
          show (v.setEngine id (.builtIn watched k')).weight ≤ _
          omega
        | error error =>
          simp only [Engine.stopAfter, hs, setEngine_of_engine? he]
          exact Nat.le_succ_of_le hv
      | fixed k =>
        simp only [Engine.stopAfter, setEngine_of_engine? he]
        exact Nat.le_succ_of_le hv

/-- A command that hands nothing to a kernel brings about only what is light. -/
theorem light_of_brings {c : Command} (hc : ∀ a, ¬ c.Carries a)
    (hs : ∀ t delay name, c ≠ .stopAfter t delay name) (hx : c.Brings w x) : x.Light := by
  cases x with
  | did id d =>
    cases d with
    | stored key payload =>
      cases payload with
      | halt =>
        obtain ⟨t, delay, name, rfl⟩ := hx
        exact absurd rfl (hs t delay name)
      | act a => exact absurd hx (hc a)
    | registered e => exact absurd hx (hc e.action)
    | _ => rfl
  | _ => trivial

/-- **The world and a command that runs nothing get lighter together.** -/
theorem weight_perform (w : World) (c : Command) :
    (w.perform c).2.weight + 1 ≤ w.weight + c.weight := by
  have hlight (hc : ∀ a, ¬ c.Carries a) (hs : ∀ t delay name, c ≠ .stopAfter t delay name) :
      (w.perform c).2.weight + 1 ≤ w.weight + c.weight := by
    have := weight_le_of_evolves ((evolves_perform w c).mono fun x => light_of_brings hc hs)
    have := c.weight_pos
    omega
  cases c with
  | schedule t timing name a =>
    have := weight_schedule w t timing name a
    simp only [perform, Command.weight]
    omega
  | scheduleEach t delays name a =>
    have h := weight_scheduleEach t name a delays w 0
    have hm : delays.length * (a.weight + 2) = delays.length * (a.weight + 1) + delays.length :=
      Nat.mul_succ _ _
    simp only [Command.weight]
    rw [perform]
    split <;> rename_i hs <;> rw [hs] at h <;> dsimp only at h ⊢ <;> omega
  | chain t tag delay length name =>
    cases length with
    | zero =>
      simp only [perform, Command.weight]
      omega
    | succ left =>
      have := weight_schedule w t (.after delay) name (link t tag delay left name)
      have hl : (link t tag delay left name).weight = 4 * left + 3 := by
        simp only [link, Action.weight, bodyWeight, Command.weight]
      simp only [perform, Command.weight]
      omega
  | stopAfter t delay name =>
    have := weight_stopAfter w t delay name
    simp only [perform, Command.weight]
    omega
  | _ => exact hlight (fun a h => h.elim) fun t delay name h => by cases h

end World

end EventSim
