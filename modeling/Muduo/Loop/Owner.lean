import Muduo.Lib.System

/-!
# One loop per thread (`EventLoop.cpp`, `CurrentThread.h`)

Every thread has its own `t_loopInThisThread`, and a loop remembers the number of the
thread that made it. `assertInLoopThread` compares numbers; `getEventLoopOfCurrentThread`
reads the variable. Only the constructor and the destructor keep the two together, and the
kernel gives the number of a thread that has ended to a new one.

A thread is named by its number here, which no two threads have at a time.
-/

namespace Muduo.Loop

open Lib

/-- What ends the program, by `LOG_FATAL`. -/
inductive OwnerFault
  | anotherLoop | notInLoopThread
  deriving DecidableEq, Repr

/-- The variables of a thread. -/
structure ThreadLocals where
  /-- `t_cachedTid`, 0 until the number is first asked for. -/
  cachedTid : Nat
  /-- `t_loopInThisThread`. -/
  loop : Option Nat
  deriving DecidableEq, Repr

/-- `CurrentThread::tid()`, and `cacheTid` in it. -/
def ThreadLocals.tid (th : ThreadLocals) (gettid : Nat) : Nat × ThreadLocals :=
  if th.cachedTid = 0 then (gettid, { th with cachedTid := gettid }) else (th.cachedTid, th)

structure Owners where
  /-- The threads that run. -/
  threads : Nat → Option ThreadLocals
  /-- `M_threadId` of the loops that exist; a loop is named by its place in the order of
  construction. -/
  loops : Nat → Option Nat
  created : Nat

namespace Owners

def new : Owners := ⟨fun _ => none, fun _ => none, 0⟩

def setThread (o : Owners) (t : Nat) (th : Option ThreadLocals) : Owners :=
  { o with threads := Function.update o.threads t th }

def setLoop (o : Owners) (l : Nat) (threadId : Option Nat) : Owners :=
  { o with loops := Function.update o.loops l threadId }

/-- `EventLoop()`: the number is stored before the variable is looked at. -/
def construct (o : Owners) (t : Nat) (th : ThreadLocals) : Except OwnerFault Owners := do
  let threadId := (th.tid t).1
  let th := (th.tid t).2
  let l := o.created
  let o := { o.setLoop l (some threadId) with created := o.created + 1 }
  check .anotherLoop (th.loop = none)
  return o.setThread t (some { th with loop := some l })

/-- `isInLoopThread`. -/
def isInLoopThread (o : Owners) (t : Nat) (th : ThreadLocals) (l : Nat) : Bool :=
  o.loops l = some (th.tid t).1

/-- `assertInLoopThread`, with which the functions of a loop and its poller begin. -/
def assertInLoopThread (o : Owners) (t : Nat) (th : ThreadLocals) (l : Nat) :
    Except OwnerFault Owners := do
  check .notInLoopThread (o.isInLoopThread t th l = true)
  return o.setThread t (some (th.tid t).2)

/-- `~EventLoop()`: the assertion is that of `M_wakeupChannel->disableAll()`. -/
def destroy (o : Owners) (t : Nat) (th : ThreadLocals) (l : Nat) : Except OwnerFault Owners := do
  let o ← o.assertInLoopThread t th l
  return (o.setLoop l none).setThread t (some { (th.tid t).2 with loop := none })

end Owners

/-- What a thread does. -/
inductive OwnerAct
  /-- A thread begins; its variables are 0. -/
  | spawn (t : Nat)
  | exit (t : Nat)
  | construct (t : Nat)
  | destroy (t l : Nat)
  | assertInLoopThread (t l : Nat)
  deriving DecidableEq, Repr

namespace Owners

def onThread (o : Owners) (t : Nat) (f : ThreadLocals → Except OwnerFault Owners) :
    Except OwnerFault Owners :=
  match o.threads t with
  | some th => f th
  | none => .ok o

def exec (o : Owners) : OwnerAct → Except OwnerFault Owners
  | .spawn t => .ok (o.setThread t (some ⟨0, none⟩))
  | .exit t => .ok (o.setThread t none)
  | .construct t => o.onThread t fun th => o.construct t th
  | .destroy t l => o.onThread t fun th => o.destroy t th l
  | .assertInLoopThread t l => o.onThread t fun th => o.assertInLoopThread t th l

/-- A number is given to one thread at a time, and is not 0; functions of a loop are called
while it exists. -/
def Enabled (o : Owners) : OwnerAct → Prop
  | .spawn t => t ≠ 0 ∧ o.threads t = none
  | .exit t | .construct t => o.threads t ≠ none
  | .destroy t l | .assertInLoopThread t l => o.threads t ≠ none ∧ o.loops l ≠ none

instance decidableEnabled (o : Owners) : ∀ a, Decidable (o.Enabled a)
  | .spawn _ | .destroy _ _ | .assertInLoopThread _ _ => inferInstanceAs (Decidable (_ ∧ _))
  | .exit _ | .construct _ => inferInstanceAs (Decidable (_ ≠ _))

end Owners

def ownersSys : Sys Owners OwnerAct OwnerFault := ⟨Owners.Enabled, Owners.exec⟩

instance (o : Owners) (a : OwnerAct) : Decidable (ownersSys.enabled o a) := o.decidableEnabled a

/-! ## What a step does -/

namespace Owners

/-- What holds whatever the threads do. -/
structure Inv (o : Owners) : Prop where
  cached : ∀ t th, o.threads t = some th → th.cachedTid = 0 ∨ th.cachedTid = t
  created : ∀ l, o.created ≤ l → o.loops l = none
  owned : ∀ t th l, o.threads t = some th → th.loop = some l → o.loops l = some t

section Tid

variable {o : Owners} {t l : Nat} {th : ThreadLocals}

theorem Inv.tid_eq (h : o.Inv) (hth : o.threads t = some th) : (th.tid t).1 = t := by
  unfold ThreadLocals.tid
  split
  · rfl
  · rename_i hcached
    exact (h.cached t th hth).resolve_left hcached

theorem Inv.tid_cached (h : o.Inv) (hth : o.threads t = some th) :
    (th.tid t).2.cachedTid = 0 ∨ (th.tid t).2.cachedTid = t := by
  unfold ThreadLocals.tid
  split
  · exact .inr rfl
  · exact h.cached t th hth

theorem tid_loop (th : ThreadLocals) (t : Nat) : (th.tid t).2.loop = th.loop := by
  unfold ThreadLocals.tid
  split
  · rfl
  · rfl

/-- The number is enough: a thread passes the assertion of the loops that carry it. -/
theorem Inv.isInLoopThread_iff (h : o.Inv) (hth : o.threads t = some th) :
    o.isInLoopThread t th l = true ↔ o.loops l = some t := by
  unfold isInLoopThread
  rw [decide_eq_true_iff, h.tid_eq hth]

end Tid

/-- What a step has done that was not stopped. -/
def Moved (o : Owners) (a : OwnerAct) (o' : Owners) : Prop :=
  match a with
  | .spawn t => o' = o.setThread t (some ⟨0, none⟩)
  | .exit t => o' = o.setThread t none
  | .construct t => ∃ th cached, o.threads t = some th ∧ th.loop = none ∧
      (cached = 0 ∨ cached = t) ∧
      o' = { (o.setLoop o.created (some t)).setThread t (some ⟨cached, some o.created⟩) with
        created := o.created + 1 }
  | .destroy t l => ∃ th cached, o.threads t = some th ∧ o.loops l = some t ∧
      (cached = 0 ∨ cached = t) ∧
      o' = (o.setLoop l none).setThread t (some ⟨cached, none⟩)
  | .assertInLoopThread t _ => ∃ th cached, o.threads t = some th ∧ (cached = 0 ∨ cached = t) ∧
      o' = o.setThread t (some ⟨cached, th.loop⟩)

section Step

variable {o o' : Owners} {t l : Nat} {th : ThreadLocals}

theorem assertInLoopThread_spec (h : o.Inv) (hth : o.threads t = some th) :
    Post (o.assertInLoopThread t th l) fun o' => o.loops l = some t ∧
      o' = o.setThread t (some ⟨(th.tid t).2.cachedTid, th.loop⟩) := by
  refine .check_bind fun hin => .ok ⟨(h.isInLoopThread_iff hth).mp hin, ?_⟩
  rw [← tid_loop th t]

theorem exec_moved (h : o.Inv) (a : OwnerAct) (hen : o.Enabled a) :
    Post (o.exec a) (o.Moved a) := by
  have hthread : ∀ {t f}, o.threads t ≠ none →
      ∃ th, o.threads t = some th ∧ o.onThread t f = f th := by
    intro t f hne
    obtain ⟨th, hth⟩ := Option.ne_none_iff_exists'.mp hne
    refine ⟨th, hth, ?_⟩
    unfold onThread
    rw [hth]
  cases a with
  | spawn t => exact .ok rfl
  | exit t => exact .ok rfl
  | construct t =>
      obtain ⟨th, hth, heq⟩ := hthread (f := fun th => o.construct t th) hen
      show Post (o.onThread t _) _
      rw [heq]
      unfold construct
      dsimp only
      refine .check_bind fun hnone => .ok ⟨th, (th.tid t).2.cachedTid, hth, ?_, ?_, ?_⟩
      · rw [← tid_loop th t]
        exact hnone
      · exact h.tid_cached hth
      · rw [h.tid_eq hth]
        rfl
  | destroy t l =>
      obtain ⟨th, hth, heq⟩ := hthread (f := fun th => o.destroy t th l) hen.1
      show Post (o.onThread t _) _
      rw [heq]
      refine (assertInLoopThread_spec h hth).bind fun o₁ ho₁ => .ok ?_
      obtain ⟨hl, rfl⟩ := ho₁
      refine ⟨th, (th.tid t).2.cachedTid, hth, hl, h.tid_cached hth, ?_⟩
      simp only [setThread, setLoop, Function.update_idem]
  | assertInLoopThread t l =>
      obtain ⟨th, hth, heq⟩ := hthread (f := fun th => o.assertInLoopThread t th l) hen.1
      show Post (o.onThread t _) _
      rw [heq]
      refine (assertInLoopThread_spec h hth).mono fun o' ho' => ?_
      exact ⟨th, (th.tid t).2.cachedTid, hth, h.tid_cached hth, ho'.2⟩

/-- A thread afterwards is the one that was set, or one from before. -/
theorem threads_setThread {x : Option ThreadLocals} {t' : Nat} {th' : ThreadLocals}
    (h : (o.setThread t x).threads t' = some th') :
    t' = t ∧ x = some th' ∨ t' ≠ t ∧ o.threads t' = some th' := by
  have hupdate : (if t' = t then x else o.threads t') = some th' := by
    rw [← h]
    exact (Function.update_apply o.threads t x t').symm
  split at hupdate
  · exact .inl ⟨‹_›, hupdate⟩
  · exact .inr ⟨‹_›, hupdate⟩

theorem loops_setLoop {x : Option Nat} {l' id : Nat} (h : (o.setLoop l x).loops l' = some id) :
    l' = l ∧ x = some id ∨ l' ≠ l ∧ o.loops l' = some id := by
  have hupdate : (if l' = l then x else o.loops l') = some id := by
    rw [← h]
    exact (Function.update_apply o.loops l x l').symm
  split at hupdate
  · exact .inl ⟨‹_›, hupdate⟩
  · exact .inr ⟨‹_›, hupdate⟩

@[simp] theorem threads_setThread_self (o : Owners) (t : Nat) (x : Option ThreadLocals) :
    (o.setThread t x).threads t = x := Function.update_self _ _ _

theorem threads_setThread_of_ne (x : Option ThreadLocals) {t' : Nat} (h : t' ≠ t) :
    (o.setThread t x).threads t' = o.threads t' := Function.update_of_ne h _ _

@[simp] theorem loops_setLoop_self (o : Owners) (l : Nat) (x : Option Nat) :
    (o.setLoop l x).loops l = x := Function.update_self _ _ _

theorem loops_setLoop_of_ne (x : Option Nat) {l' : Nat} (h : l' ≠ l) :
    (o.setLoop l x).loops l' = o.loops l' := Function.update_of_ne h _ _

/-- A loop that exists has been constructed. -/
theorem Inv.lt_created (h : o.Inv) {id : Nat} (hl : o.loops l = some id) : l < o.created := by
  by_contra hle
  rw [h.created l (Nat.le_of_not_lt hle)] at hl
  exact absurd hl (by simp)

/-- The invariant is kept: two threads do not have the same number at a time. -/
theorem Inv.moved (h : o.Inv) {a : OwnerAct} (hmoved : o.Moved a o') : o'.Inv := by
  cases a with
  | spawn t =>
      obtain rfl := hmoved
      refine ⟨fun t' th' hth' => ?_, h.created, fun t' th' l' hth' hl' => ?_⟩
      · rcases threads_setThread hth' with ⟨-, heq⟩ | ⟨-, hth'⟩
        · obtain rfl := Option.some.inj heq
          exact .inl rfl
        · exact h.cached t' th' hth'
      · rcases threads_setThread hth' with ⟨-, heq⟩ | ⟨-, hth'⟩
        · obtain rfl := Option.some.inj heq
          exact absurd hl' (by simp)
        · exact h.owned t' th' l' hth' hl'
  | exit t =>
      obtain rfl := hmoved
      refine ⟨fun t' th' hth' => ?_, h.created, fun t' th' l' hth' hl' => ?_⟩
      · rcases threads_setThread hth' with ⟨-, heq⟩ | ⟨-, hth'⟩
        · exact absurd heq (by simp)
        · exact h.cached t' th' hth'
      · rcases threads_setThread hth' with ⟨-, heq⟩ | ⟨-, hth'⟩
        · exact absurd heq (by simp)
        · exact h.owned t' th' l' hth' hl'
  | construct t =>
      obtain ⟨th, cached, hth, hnone, hcached, rfl⟩ := hmoved
      refine ⟨fun t' th' hth' => ?_, fun l' hl' => ?_, fun t' th' l' hth' hl' => ?_⟩
      · rcases threads_setThread hth' with ⟨rfl, heq⟩ | ⟨-, hth'⟩
        · obtain rfl := Option.some.inj heq
          exact hcached
        · exact h.cached t' th' hth'
      · have hle : o.created + 1 ≤ l' := hl'
        show (o.setLoop o.created (some t)).loops l' = none
        rw [loops_setLoop_of_ne _ (by omega)]
        exact h.created l' (by omega)
      · show (o.setLoop o.created (some t)).loops l' = some t'
        rcases threads_setThread hth' with ⟨rfl, heq⟩ | ⟨-, hth'⟩
        · obtain rfl := Option.some.inj heq
          obtain rfl := Option.some.inj hl'
          exact loops_setLoop_self _ _ _
        · have hold := h.owned t' th' l' hth' hl'
          rw [loops_setLoop_of_ne _ (h.lt_created hold).ne]
          exact hold
  | destroy t l =>
      obtain ⟨th, cached, -, hl, hcached, rfl⟩ := hmoved
      refine ⟨fun t' th' hth' => ?_, fun l' hl' => ?_, fun t' th' l' hth' hl' => ?_⟩
      · rcases threads_setThread hth' with ⟨rfl, heq⟩ | ⟨-, hth'⟩
        · obtain rfl := Option.some.inj heq
          exact hcached
        · exact h.cached t' th' hth'
      · show (o.setLoop l none).loops l' = none
        by_cases heq : l' = l
        · rw [heq]
          exact loops_setLoop_self _ _ _
        · rw [loops_setLoop_of_ne _ heq]
          exact h.created l' hl'
      · show (o.setLoop l none).loops l' = some t'
        rcases threads_setThread hth' with ⟨-, heq⟩ | ⟨hne, hth'⟩
        · obtain rfl := Option.some.inj heq
          exact absurd hl' (by simp)
        · have hold := h.owned t' th' l' hth' hl'
          -- the destroyed loop carried the number of the thread that destroyed it
          have hne' : l' ≠ l := by
            rintro rfl
            exact hne (Option.some.inj (hold.symm.trans hl))
          rw [loops_setLoop_of_ne _ hne']
          exact hold
  | assertInLoopThread t l =>
      obtain ⟨th, cached, hth, hcached, rfl⟩ := hmoved
      refine ⟨fun t' th' hth' => ?_, h.created, fun t' th' l' hth' hl' => ?_⟩
      · rcases threads_setThread hth' with ⟨rfl, heq⟩ | ⟨-, hth'⟩
        · obtain rfl := Option.some.inj heq
          exact hcached
        · exact h.cached t' th' hth'
      · rcases threads_setThread hth' with ⟨rfl, heq⟩ | ⟨-, hth'⟩
        · obtain rfl := Option.some.inj heq
          exact h.owned t' th l' hth hl'
        · exact h.owned t' th' l' hth' hl'

end Step

end Owners

/-! ## When the two agree -/

namespace Owners

/-- A thread passes `assertInLoopThread` of exactly the loop, if any, that
`getEventLoopOfCurrentThread` returns in it. -/
def Exact (o : Owners) : Prop :=
  ∀ t th l, o.threads t = some th → o.loops l ≠ none →
    (o.isInLoopThread t th l = true ↔ th.loop = some l)

/-- A thread that begins has the number of no loop that exists. -/
def Fresh (o : Owners) : OwnerAct → Prop
  | .spawn t => ∀ l < o.created, o.loops l ≠ some t
  | .exit _ | .construct _ | .destroy _ _ | .assertInLoopThread _ _ => True

/-- A thread that ends has no loop. -/
def Clean (o : Owners) : OwnerAct → Prop
  | .exit t => ∀ th ∈ o.threads t, th.loop = none
  | .spawn _ | .construct _ | .destroy _ _ | .assertInLoopThread _ _ => True

instance decidableFresh (o : Owners) : ∀ a, Decidable (o.Fresh a)
  | .spawn t => inferInstanceAs (Decidable (∀ l < o.created, o.loops l ≠ some t))
  | .exit _ | .construct _ | .destroy _ _ | .assertInLoopThread _ _ =>
      inferInstanceAs (Decidable True)

instance decidableClean (o : Owners) : ∀ a, Decidable (o.Clean a)
  | .exit t => inferInstanceAs (Decidable (∀ th ∈ o.threads t, th.loop = none))
  | .spawn _ | .construct _ | .destroy _ _ | .assertInLoopThread _ _ =>
      inferInstanceAs (Decidable True)

section Agree

variable {o o' : Owners}

/-- Under the invariant, what may go wrong is a loop that its thread does not know of. -/
theorem Inv.exact_iff (h : o.Inv) :
    o.Exact ↔ ∀ t th l, o.threads t = some th → o.loops l = some t → th.loop = some l := by
  constructor
  · intro hexact t th l hth hl
    exact (hexact t th l hth (by rw [hl]; simp)).mp ((h.isInLoopThread_iff hth).mpr hl)
  · intro hknown t th l hth _
    rw [h.isInLoopThread_iff hth]
    exact ⟨hknown t th l hth, h.owned t th l hth⟩

/-- Where they agree, only a thread that is given the number of a loop disturbs it. -/
theorem Exact.moved_iff (h : o.Inv) (hexact : o.Exact) {a : OwnerAct} (hmoved : o.Moved a o') :
    o'.Exact ↔ o.Fresh a := by
  rw [(h.moved hmoved).exact_iff]
  rw [h.exact_iff] at hexact
  cases a with
  | spawn t =>
      obtain rfl := hmoved
      constructor
      · intro hknown l hlt hl
        have hbegun := threads_setThread_self o t (some ⟨0, none⟩)
        exact absurd (hknown t ⟨0, none⟩ l hbegun hl) (by simp)
      · intro hfresh t' th' l hth' hl
        rcases threads_setThread hth' with ⟨rfl, -⟩ | ⟨-, hth'⟩
        · have hl : o.loops l = some t' := hl
          exact absurd hl (hfresh l (h.lt_created hl))
        · exact hexact t' th' l hth' hl
  | exit t =>
      obtain rfl := hmoved
      refine iff_of_true (fun t' th' l hth' hl => ?_) trivial
      rcases threads_setThread hth' with ⟨-, heq⟩ | ⟨-, hth'⟩
      · exact absurd heq (by simp)
      · exact hexact t' th' l hth' hl
  | construct t =>
      obtain ⟨th, cached, hth, hnone, -, rfl⟩ := hmoved
      refine iff_of_true (fun t' th' l hth' hl => ?_) trivial
      rcases loops_setLoop hl with ⟨rfl, heq⟩ | ⟨-, hold⟩
      · obtain rfl := Option.some.inj heq
        rcases threads_setThread hth' with ⟨-, heq⟩ | ⟨hne, -⟩
        · obtain rfl := Option.some.inj heq
          rfl
        · exact absurd rfl hne
      · rcases threads_setThread hth' with ⟨rfl, -⟩ | ⟨-, hth'⟩
        · -- the thread had no loop
          exact absurd ((hexact t' th l hth hold).symm.trans hnone) (by simp)
        · exact hexact t' th' l hth' hold
  | destroy t l =>
      obtain ⟨th, cached, hth, hl, -, rfl⟩ := hmoved
      refine iff_of_true (fun t' th' l' hth' hl' => ?_) trivial
      rcases loops_setLoop hl' with ⟨-, heq⟩ | ⟨hne, hold⟩
      · exact absurd heq (by simp)
      · rcases threads_setThread hth' with ⟨rfl, -⟩ | ⟨-, hth'⟩
        · have hsame := (hexact t' th l' hth hold).symm.trans (hexact t' th l hth hl)
          exact absurd (Option.some.inj hsame) hne
        · exact hexact t' th' l' hth' hold
  | assertInLoopThread t l =>
      obtain ⟨th, cached, hth, -, rfl⟩ := hmoved
      refine iff_of_true (fun t' th' l' hth' hl' => ?_) trivial
      rcases threads_setThread hth' with ⟨rfl, heq⟩ | ⟨-, hth'⟩
      · obtain rfl := Option.some.inj heq
        exact hexact t' th l' hth hl'
      · exact hexact t' th' l' hth' hl'

/-- Every loop is the loop of a thread that runs. -/
def Attended (o : Owners) : Prop :=
  ∀ l t, o.loops l = some t → ∃ th, o.threads t = some th ∧ th.loop = some l

/-- A thread that ends without a loop leaves none behind. -/
theorem Attended.moved (hattended : o.Attended) {a : OwnerAct} (hen : o.Enabled a)
    (hclean : o.Clean a) (hmoved : o.Moved a o') : o.Fresh a ∧ o'.Attended := by
  cases a with
  | spawn t =>
      obtain rfl := hmoved
      refine ⟨fun l _ hl => ?_, fun l t' hl => ?_⟩
      · obtain ⟨th, hth, -⟩ := hattended l t hl
        exact absurd (hen.2.symm.trans hth) (by simp)
      · obtain ⟨th, hth, hloop⟩ := hattended l t' hl
        have hne : t' ≠ t := by
          rintro rfl
          exact absurd (hen.2.symm.trans hth) (by simp)
        exact ⟨th, (threads_setThread_of_ne _ hne).trans hth, hloop⟩
  | exit t =>
      obtain rfl := hmoved
      refine ⟨trivial, fun l t' hl => ?_⟩
      obtain ⟨th, hth, hloop⟩ := hattended l t' hl
      have hne : t' ≠ t := by
        rintro rfl
        exact absurd ((hclean th hth).symm.trans hloop) (by simp)
      exact ⟨th, (threads_setThread_of_ne _ hne).trans hth, hloop⟩
  | construct t =>
      obtain ⟨th, cached, hth, hnone, -, rfl⟩ := hmoved
      refine ⟨trivial, fun l t' hl => ?_⟩
      rcases loops_setLoop hl with ⟨rfl, heq⟩ | ⟨-, hold⟩
      · obtain rfl := Option.some.inj heq
        exact ⟨_, threads_setThread_self _ t _, rfl⟩
      · obtain ⟨th', hth', hloop⟩ := hattended l t' hold
        have hne : t' ≠ t := by
          rintro rfl
          obtain rfl := Option.some.inj (hth.symm.trans hth')
          exact absurd (hnone.symm.trans hloop) (by simp)
        exact ⟨th', (threads_setThread_of_ne _ hne).trans hth', hloop⟩
  | destroy t l =>
      obtain ⟨th, cached, hth, hl, -, rfl⟩ := hmoved
      refine ⟨trivial, fun l' t' hl' => ?_⟩
      rcases loops_setLoop hl' with ⟨-, heq⟩ | ⟨hne, hold⟩
      · exact absurd heq (by simp)
      · obtain ⟨th', hth', hloop⟩ := hattended l' t' hold
        have hne' : t' ≠ t := by
          rintro rfl
          obtain ⟨th'', hth'', hloop'⟩ := hattended l t' hl
          obtain rfl := Option.some.inj (hth'.symm.trans hth'')
          exact hne (Option.some.inj (hloop.symm.trans hloop'))
        exact ⟨th', (threads_setThread_of_ne _ hne').trans hth', hloop⟩
  | assertInLoopThread t l =>
      obtain ⟨th, cached, hth, -, rfl⟩ := hmoved
      refine ⟨trivial, fun l' t' hl' => ?_⟩
      obtain ⟨th', hth', hloop⟩ := hattended l' t' hl'
      by_cases heq : t' = t
      · obtain rfl := heq
        obtain rfl := Option.some.inj (hth.symm.trans hth')
        exact ⟨_, threads_setThread_self o t' _, hloop⟩
      · exact ⟨th', (threads_setThread_of_ne _ heq).trans hth', hloop⟩

end Agree

theorem new_inv : new.Inv :=
  ⟨fun _ _ h => absurd h (by simp [new]), fun _ _ => rfl, fun _ _ _ h => absurd h (by simp [new])⟩

theorem new_exact : new.Exact := fun _ _ _ h => absurd h (by simp [new])

theorem new_attended : new.Attended := fun _ _ h => absurd h (by simp [new])

end Owners

end Muduo.Loop
