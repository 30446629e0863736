import Muduo.Loop.Thread

/-!
# `EventLoopThread::startLoop`

`startLoop` starts the thread and waits on `M_cond` until `threadFunc` has published the
loop; `threadFunc` notifies once, when it does. The wait re-tests `M_loop`, which
`threadFunc` sets back to `NULL` when `loop()` has returned, and the result is read after
the mutex has been released. So a loop that is quit early can be missed: the notified
thread finds `NULL` again and waits for good, or reads `NULL` as its result. Nothing else
can go wrong: while nobody has asked the loop to quit, `startLoop` comes to return it.
-/

namespace Muduo.Loop

open Lib EventLoop

variable {F : Type}

/-- Where the thread is that calls `startLoop()`. -/
inductive Starter
  | before
  /-- Before `while(M_loop == NULL)`, with the mutex to be taken. -/
  | testing
  | waiting (signalled : Bool)
  /-- Past the critical section, before `return M_loop`. -/
  | returning
  /-- `loop` is whether the result is not `NULL`. -/
  | returned (loop : Bool)
  deriving DecidableEq, Repr

structure StartLoop (F : Type) where
  thread : EventLoopThread F
  starter : Starter

def StartLoop.new : StartLoop F := ⟨.new, .before⟩

inductive StartAct (F : Type)
  /-- `M_thread.start()`. -/
  | start
  | test
  /-- The return from `M_cond.wait()`, signalled or not. -/
  | wake
  | ret
  /-- A step of `threadFunc`, of the loop, or of `~EventLoopThread`. -/
  | thread (a : ThreadAct F)
  deriving DecidableEq, Repr

/-- A step of `~EventLoopThread`. -/
def ThreadAct.ofDtor : ThreadAct F → Bool
  | .destroy _ | .dtorQuit | .dtorWakeup | .join => true
  | _ => false

/-- The step is the critical section that publishes the loop. -/
def ThreadAct.publishes : ThreadAct F → Bool
  | .publish => true
  | _ => false

/-- `M_cond.notify()`. -/
def Starter.notify : Starter → Starter
  | .waiting _ => .waiting true
  | starter => starter

def Starter.isReturned : Starter → Bool
  | .returned _ => true
  | _ => false

namespace StartLoop

/-- The test of `while(M_loop == NULL)`. -/
def testLoop (s : StartLoop F) : StartLoop F :=
  { s with starter := if s.thread.published then .returning else .waiting false }

/-- A step of the thread; the one that publishes the loop notifies. -/
def step (s : StartLoop F) (a : ThreadAct F) : Except ThreadFault (StartLoop F) := do
  let thread ← s.thread.exec a
  return { s with
    thread := thread
    starter := if a.publishes then s.starter.notify else s.starter }

def exec (s : StartLoop F) : StartAct F → Except ThreadFault (StartLoop F)
  | .start => .ok { s with starter := .testing }
  | .test | .wake => .ok s.testLoop
  | .ret => .ok { s with starter := .returned s.thread.published }
  | .thread a => s.step a

/-- The thread runs from its start on; the object is not destroyed before `startLoop` has
returned. -/
def enabled (s : StartLoop F) : StartAct F → Bool
  | .start => s.starter = .before
  | .test => s.starter = .testing
  | .wake => (s.starter matches .waiting _)
  | .ret => s.starter = .returning
  | .thread a => !(s.starter matches .before) && s.thread.enabled a &&
      (!a.ofDtor || s.starter.isReturned)

end StartLoop

def startSys : Sys (StartLoop F) (StartAct F) ThreadFault :=
  ⟨fun s a => s.enabled a = true, StartLoop.exec⟩

instance (s : StartLoop F) (a : StartAct F) : Decidable (startSys.enabled s a) :=
  inferInstanceAs (Decidable (s.enabled a = true))

/-- `M_loop` is not `NULL` here. -/
def Place.shown : Place → Bool
  | .enter | .looping | .clear => true
  | _ => false

/-- What a loop that was asked to quit has to do with the places of `threadFunc`. -/
structure QuitInv (s : EventLoopThread F) : Prop where
  published : s.published = s.place.shown
  called : s.object.quit = true → s.quitCalled = true
  pc : s.place = .looping → s.object.pc ≠ .idle
  returned : s.place.returned = true → s.quitCalled = true

section Steps

variable {s s' : EventLoopThread F}

/-- `loop()` returns because of `M_quit`. -/
theorem quit_of_idle {l l' : EventLoop F} {a : Act F} (h : Loop.exec l a = .ok l')
    (hpc : l.pc ≠ .idle) (hidle : l'.pc = .idle) : l.quit = true := by
  cases a with
  | enter =>
      obtain ⟨u, -, hl⟩ := bind_eq_ok h
      obtain rfl := Except.ok.inj hl
      exact absurd hidle (by simp)
  | test =>
      obtain rfl := Except.ok.inj h
      unfold EventLoop.test at hidle
      by_contra hquit
      rw [if_neg hquit] at hidle
      exact absurd hidle (by simp [setPc])
  | dispatch =>
      obtain rfl := Except.ok.inj h
      unfold EventLoop.dispatch at hidle
      split at hidle
      · exact absurd hidle (by simp [setPc])
      · exact absurd hidle (by simp [setPc])
      · exact absurd hidle hpc
  | call =>
      obtain rfl := Except.ok.inj h
      unfold EventLoop.call at hidle
      split at hidle
      · exact absurd hidle (by simp)
      · exact absurd hidle hpc
  | queueEnd =>
      obtain rfl := Except.ok.inj h
      unfold EventLoop.queueEnd at hidle
      dsimp only at hidle
      split at hidle
      · exact absurd hidle hpc
      · exact absurd hidle hpc
  | pollReturn | beginPending | swap | endPending =>
      obtain rfl := Except.ok.inj h
      exact absurd hidle (by simp [pollReturn, beginPending, swap, endPending])
  | quit | queue | threadQueue | threadWakeup | threadQuit | threadQuitWakeup =>
      obtain rfl := Except.ok.inj h
      exact absurd hidle hpc

theorem step_quitInv (h : QuitInv s) {a : Act F} (hen : s.enabled (.loop a) = true) :
    Post (s.step a) QuitInv := by
  intro s' hs'
  obtain ⟨object, hexec, hs'⟩ := bind_eq_ok hs'
  obtain rfl := Except.ok.inj hs'
  have hexec := mapError_eq_ok hexec
  cases ha : a.enters with
  | true =>
      obtain rfl : a = .enter := by
        cases a with
        | enter => rfl
        | _ => exact absurd ha (by simp [Act.enters])
      have hplace : s.place = .enter := by
        simp only [EventLoopThread.enabled, Act.enters, if_true, Bool.and_eq_true] at hen
        exact of_decide_eq_true hen.2
      obtain ⟨u, -, hobject⟩ := bind_eq_ok hexec
      obtain rfl := Except.ok.inj hobject
      have hafter : s.placeAfter .enter { s.object with looping := true, quit := false, pc := .test } =
          .looping := placeAfter_of_enters rfl _
      have hpublished := h.published
      refine ⟨?_, fun hq => absurd hq (by simp), fun _ => by simp, fun hret => ?_⟩
      · have hshown := congrArg Place.shown hafter
        rw [hplace] at hpublished
        exact hpublished.trans hshown.symm
      · exact absurd ((congrArg Place.returned hafter).symm.trans hret) (by simp [Place.returned])
  | false =>
      have hquit := exec_quit ha hexec
      have hcalled : object.quit = true → (s.quitCalled || a.quits) = true := by
        intro hq
        rw [hquit] at hq
        rcases Bool.or_eq_true_iff.mp hq with hq | hq
        · rw [h.called hq, Bool.true_or]
        · rw [hq, Bool.or_true]
      by_cases hlooping : s.place = .looping
      · have hpublished : s.published = true := by
          rw [h.published, hlooping]
          rfl
        by_cases hidle : object.pc = .idle
        · -- `loop()` returns
          have hafter : s.placeAfter a object = .clear := by
            unfold EventLoopThread.placeAfter
            rw [if_neg (by simp [ha]), if_pos ⟨hlooping, by rw [hidle]⟩]
          refine ⟨?_, hcalled, fun hs => absurd (hafter.symm.trans hs) (by simp), fun _ => ?_⟩
          · show s.published = Place.shown (s.placeAfter a object)
            rw [hafter, hpublished]
            rfl
          · have := h.called (quit_of_idle hexec (h.pc hlooping) hidle)
            show (s.quitCalled || a.quits) = true
            rw [this, Bool.true_or]
        · have hafter : s.placeAfter a object = .looping := by
            unfold EventLoopThread.placeAfter
            rw [if_neg (by simp [ha]), if_neg, hlooping]
            rintro ⟨-, hmatches⟩
            split at hmatches
            · exact hidle ‹_›
            · exact absurd hmatches (by simp)
          refine ⟨?_, hcalled, fun _ => hidle, fun hret => ?_⟩
          · show s.published = Place.shown (s.placeAfter a object)
            rw [hafter, hpublished]
            rfl
          · exact absurd ((congrArg Place.returned hafter).symm.trans hret)
              (by simp [Place.returned])
      · have hafter := placeAfter_of_ne_looping ha hlooping object
        refine ⟨?_, hcalled, fun hs => absurd (hafter.symm.trans hs) hlooping, fun hret => ?_⟩
        · show s.published = Place.shown (s.placeAfter a object)
          rw [hafter]
          exact h.published
        · have := h.returned ((congrArg Place.returned hafter).symm.trans hret)
          show (s.quitCalled || a.quits) = true
          rw [this, Bool.true_or]

theorem exec_quitInv (h : QuitInv s) {a : ThreadAct F} (hen : s.enabled a = true) :
    Post (s.exec a) QuitInv := by
  have hpublished := h.published
  cases a with
  | loop a => exact step_quitInv h hen
  | construct =>
      rw [show s.place = .start from of_decide_eq_true hen] at hpublished
      exact .ok ⟨hpublished, fun hq => absurd hq (by simp [EventLoop.new]),
        fun hs => absurd hs (by simp), fun hret => absurd hret (by simp [Place.returned])⟩
  | initQuit => exact .ok ⟨hpublished, fun _ => rfl, h.pc, fun _ => rfl⟩
  | initQueue f => exact .ok ⟨hpublished, h.called, h.pc, h.returned⟩
  | initDone =>
      rw [show s.place = .init from of_decide_eq_true hen] at hpublished
      exact .ok ⟨hpublished, h.called, fun hs => absurd hs (by simp),
        fun hret => absurd hret (by simp [Place.returned])⟩
  | publish =>
      exact .ok ⟨rfl, h.called, fun hs => absurd hs (by simp),
        fun hret => absurd hret (by simp [Place.returned])⟩
  | clear =>
      have hclear : s.place = .clear := of_decide_eq_true hen
      exact .ok ⟨rfl, h.called, fun hs => absurd hs (by simp),
        fun _ => h.returned (by rw [hclear]; rfl)⟩
  | destroy t => exact .ok ⟨hpublished, h.called, h.pc, h.returned⟩
  | dtorQuit =>
      simp only [EventLoopThread.exec, EventLoopThread.dtorQuit]
      split
      · exact .check_bind fun _ => .ok ⟨hpublished, fun _ => rfl, h.pc, fun _ => rfl⟩
      · exact .ok h
  | dtorWakeup =>
      simp only [EventLoopThread.exec, EventLoopThread.dtorWakeup]
      split
      · exact .check_bind fun _ => .ok ⟨hpublished, h.called, h.pc, h.returned⟩
      · exact .ok h
  | join => exact .ok ⟨hpublished, h.called, h.pc, h.returned⟩

theorem new_quitInv : QuitInv (EventLoopThread.new : EventLoopThread F) :=
  ⟨rfl, fun hq => absurd hq (by simp [EventLoopThread.new, EventLoop.new]),
    fun hs => absurd hs (by simp [EventLoopThread.new]),
    fun hret => absurd hret (by simp [EventLoopThread.new, Place.returned])⟩

end Steps

/-! ## The handshake -/

/-- The loop has been published. -/
def Place.begun : Place → Bool
  | .start | .init | .publish => false
  | _ => true

structure StartInv (s : StartLoop F) : Prop where
  quit : QuitInv s.thread
  waiting : s.starter = .waiting false → s.thread.published = false
  returning : s.starter = .returning → s.thread.place.begun = true
  found : s.starter = .returned true → s.thread.place.begun = true
  missed : s.starter = .returned false → s.thread.place = .exited

section Handshake

variable {s s' : EventLoopThread F}

theorem placeAfter_begun (h : s.place.begun = true) (a : Act F) (object : EventLoop F) :
    (s.placeAfter a object).begun = true := by
  cases ha : a.enters with
  | true =>
      rw [placeAfter_of_enters ha]
      rfl
  | false =>
      by_cases hlooping : s.place = .looping
      · rcases placeAfter_of_looping ha hlooping object with hplace | hplace
        · rw [hplace]
          rfl
        · rw [hplace]
          rfl
      · rw [placeAfter_of_ne_looping ha hlooping, h]

/-- A published loop stays one that has been published. -/
theorem exec_begun {a : ThreadAct F} (hen : s.enabled a = true) (h : s.place.begun = true) :
    Post (s.exec a) fun s' => s'.place.begun = true := by
  have hne : ∀ place, place.begun = false → s.place ≠ place := by
    rintro place hplace rfl
    exact absurd (h.symm.trans hplace) (by simp)
  cases a with
  | construct => exact absurd (of_decide_eq_true hen) (hne .start rfl)
  | initDone => exact absurd (of_decide_eq_true hen) (hne .init rfl)
  | loop a =>
      intro s' hs'
      obtain ⟨object, -, hs'⟩ := bind_eq_ok hs'
      obtain rfl := Except.ok.inj hs'
      exact placeAfter_begun h a object
  | dtorQuit =>
      simp only [EventLoopThread.exec, EventLoopThread.dtorQuit]
      split
      · exact .check_bind fun _ => .ok h
      · exact .ok h
  | dtorWakeup =>
      simp only [EventLoopThread.exec, EventLoopThread.dtorWakeup]
      split
      · exact .check_bind fun _ => .ok h
      · exact .ok h
  | publish | clear => exact .ok rfl
  | initQuit | initQueue f | destroy t | join => exact .ok h

/-- `threadFunc` takes no step once it has returned. -/
theorem exec_exited {a : ThreadAct F} (hen : s.enabled a = true) (h : s.place = .exited) :
    Post (s.exec a) fun s' => s'.place = .exited := by
  cases a with
  | construct | initQuit | initQueue f | initDone | publish | clear =>
      exact absurd ((of_decide_eq_true hen).symm.trans h) (by simp)
  | loop a =>
      simp only [EventLoopThread.enabled, h, Place.alive, Bool.and_eq_true] at hen
      obtain ⟨-, hen⟩ := hen
      split at hen
      · exact absurd hen (by simp)
      · split at hen
        · exact absurd hen (by simp)
        · exact absurd hen (by simp)
  | dtorQuit =>
      simp only [EventLoopThread.exec, EventLoopThread.dtorQuit]
      split
      · exact .check_bind fun _ => .ok h
      · exact .ok h
  | dtorWakeup =>
      simp only [EventLoopThread.exec, EventLoopThread.dtorWakeup]
      split
      · exact .check_bind fun _ => .ok h
      · exact .ok h
  | destroy t | join => exact .ok h

/-- `M_loop` is set by the step that notifies. -/
theorem exec_published {a : ThreadAct F} (ha : a.publishes = false)
    (h : s.published = false) : Post (s.exec a) fun s' => s'.published = false := by
  cases a with
  | publish => exact absurd ha (by simp [ThreadAct.publishes])
  | loop a =>
      intro s' hs'
      obtain ⟨object, -, hs'⟩ := bind_eq_ok hs'
      obtain rfl := Except.ok.inj hs'
      exact h
  | dtorQuit =>
      simp only [EventLoopThread.exec, EventLoopThread.dtorQuit]
      split
      · exact .check_bind fun _ => .ok h
      · exact .ok h
  | dtorWakeup =>
      simp only [EventLoopThread.exec, EventLoopThread.dtorWakeup]
      split
      · exact .check_bind fun _ => .ok h
      · exact .ok h
  | clear => exact .ok rfl
  | construct | initQuit | initQueue f | initDone | destroy t | join => exact .ok h

end Handshake

section Start

variable {s : StartLoop F}

theorem begun_of_published (h : QuitInv s.thread) (hp : s.thread.published = true) :
    s.thread.place.begun = true := by
  rw [h.published] at hp
  cases hplace : s.thread.place with
  | start | init | publish | exited => exact absurd hp (by simp [hplace, Place.shown])
  | _ => rfl

/-- The loop has been published, and it is gone. -/
theorem exited_of_begun (h : QuitInv s.thread) (hb : s.thread.place.begun = true)
    (hp : s.thread.published = false) : s.thread.place = .exited := by
  rw [h.published] at hp
  cases hplace : s.thread.place with
  | exited => rfl
  | start | init | publish => exact absurd hb (by simp [hplace, Place.begun])
  | enter | looping | clear => exact absurd hp (by simp [hplace, Place.shown])

@[simp] theorem notify_returned (starter : Starter) (b : Bool) :
    starter.notify = .returned b ↔ starter = .returned b := by
  cases starter <;> simp [Starter.notify]

@[simp] theorem notify_returning (starter : Starter) :
    starter.notify = .returning ↔ starter = .returning := by
  cases starter <;> simp [Starter.notify]

theorem notify_ne_waiting (starter : Starter) : starter.notify ≠ .waiting false := by
  cases starter <;> simp [Starter.notify]

theorem testLoop_inv (h : StartInv s) : StartInv s.testLoop := by
  unfold StartLoop.testLoop
  split
  next hp =>
    exact ⟨h.quit, fun hs => absurd hs (by simp), fun _ => begun_of_published h.quit hp,
      fun hs => absurd hs (by simp), fun hs => absurd hs (by simp)⟩
  next hp =>
    exact ⟨h.quit, fun _ => by simpa using hp, fun hs => absurd hs (by simp),
      fun hs => absurd hs (by simp), fun hs => absurd hs (by simp)⟩

/-- A step of `threadFunc` finds the caller where it left it, or notifies it. -/
theorem step_startInv (h : StartInv s) {a : ThreadAct F} (hen : s.thread.enabled a = true) :
    Post (s.step a) StartInv := by
  intro s' hs'
  obtain ⟨thread, hexec, hs'⟩ := bind_eq_ok hs'
  obtain rfl := Except.ok.inj hs'
  have hquit := exec_quitInv h.quit hen thread hexec
  cases ha : a.publishes with
  | true =>
      refine ⟨hquit, fun hs => ?_, fun hs => ?_, fun hs => ?_, fun hs => ?_⟩
      · simp only [if_true] at hs
        exact absurd hs (notify_ne_waiting s.starter)
      · simp only [if_true, notify_returning] at hs
        exact exec_begun hen (h.returning hs) thread hexec
      · simp only [if_true, notify_returned] at hs
        exact exec_begun hen (h.found hs) thread hexec
      · simp only [if_true, notify_returned] at hs
        exact exec_exited hen (h.missed hs) thread hexec
  | false =>
      refine ⟨hquit, fun hs => ?_, fun hs => ?_, fun hs => ?_, fun hs => ?_⟩
      · simp only [Bool.false_eq_true, if_false] at hs
        exact exec_published ha (h.waiting hs) thread hexec
      · simp only [Bool.false_eq_true, if_false] at hs
        exact exec_begun hen (h.returning hs) thread hexec
      · simp only [Bool.false_eq_true, if_false] at hs
        exact exec_begun hen (h.found hs) thread hexec
      · simp only [Bool.false_eq_true, if_false] at hs
        exact exec_exited hen (h.missed hs) thread hexec

theorem exec_startInv (h : StartInv s) {a : StartAct F} (hen : s.enabled a = true) :
    Post (s.exec a) StartInv := by
  cases a with
  | start =>
      exact .ok ⟨h.quit, fun hs => absurd hs (by simp), fun hs => absurd hs (by simp),
        fun hs => absurd hs (by simp), fun hs => absurd hs (by simp)⟩
  | test | wake => exact .ok (testLoop_inv h)
  | ret =>
      have hbegun := h.returning (of_decide_eq_true hen)
      exact .ok ⟨h.quit, fun hs => absurd hs (by simp), fun hs => absurd hs (by simp),
        fun _ => hbegun, fun hs => exited_of_begun h.quit hbegun (by simpa using hs)⟩
  | thread a =>
      simp only [StartLoop.enabled, Bool.and_eq_true] at hen
      exact step_startInv h hen.1.2

theorem new_startInv : StartInv (StartLoop.new : StartLoop F) :=
  ⟨new_quitInv, fun hs => absurd hs (by simp [StartLoop.new]),
    fun hs => absurd hs (by simp [StartLoop.new]), fun hs => absurd hs (by simp [StartLoop.new]),
    fun hs => absurd hs (by simp [StartLoop.new])⟩

theorem run_startInv {acts : List (StartAct F)} (hlegal : startSys.Legal .new acts) :
    Post (startSys.runFrom .new acts) StartInv :=
  Sys.invariant_post (S := startSys) (fun _ _ h ha => exec_startInv h ha) new_startInv hlegal

/-! ## The way to the result -/

/-- The steps to the end of `startLoop`, in the thread that calls it and in `threadFunc`
with an init callback that returns; a wait ends where it has been signalled. -/
def StartLoop.Goes (s : StartLoop F) : StartAct F → Prop
  | .start | .test | .ret | .thread .construct | .thread .initDone | .thread .publish => True
  | .wake => s.starter = .waiting true
  | _ => False

/-- The steps `startLoop` still has to make. -/
def Starter.left : Starter → Nat
  | .before => 4
  | .testing => 3
  | .waiting _ => 2
  | .returning => 1
  | .returned _ => 0

/-- The steps `threadFunc` has to make before `loop()`. -/
def Place.left : Place → Nat
  | .start => 3
  | .init => 2
  | .publish => 1
  | _ => 0

@[simp] theorem notify_left (starter : Starter) : starter.notify.left = starter.left := by
  cases starter <;> rfl

/-- A loop that has been made and has not been asked to quit is to be found in `M_loop`. -/
theorem published_of_begun (h : QuitInv s.thread) (hb : s.thread.place.begun = true)
    (hcalled : s.thread.quitCalled = false) :
    s.thread.published = true ∧ s.thread.place.alive = true := by
  have hreturned : s.thread.place.returned = false := by
    cases hret : s.thread.place.returned with
    | true => exact absurd ((h.returned hret).symm.trans hcalled) (by simp)
    | false => rfl
  rw [h.published]
  cases hplace : s.thread.place with
  | start | init | publish => exact absurd hb (by simp [hplace, Place.begun])
  | clear | exited => exact absurd hreturned (by simp [hplace, Place.returned])
  | enter | looping => exact ⟨rfl, rfl⟩

theorem place_goes (h : StartInv s) (hcalled : s.thread.quitCalled = false)
    (hbefore : s.starter ≠ .before) (hbegun : s.thread.place.begun = false) :
    ∃ a, (s.enabled a = true ∧ s.Goes a) ∧ Lands (s.exec a) fun s' =>
      (StartInv s' ∧ s'.thread.quitCalled = false) ∧
        s'.starter.left + s'.thread.place.left < s.starter.left + s.thread.place.left := by
  have hstarter : (s.starter matches .before) = false := by
    cases hs : s.starter with
    | before => exact absurd hs hbefore
    | _ => rfl
  have hthread : ∀ {a : ThreadAct F}, a.ofDtor = false → s.thread.enabled a = true →
      s.enabled (.thread a) = true := by
    intro a ha hen
    rw [StartLoop.enabled, hstarter, hen, ha]
    rfl
  cases hplace : s.thread.place with
  | start =>
      have hen : s.enabled (.thread .construct) = true := hthread rfl (decide_eq_true hplace)
      exact ⟨.thread .construct, ⟨hen, trivial⟩, _, rfl, ⟨exec_startInv h hen _ rfl, hcalled⟩,
        Nat.add_lt_add_left (show 2 < 3 by decide) _⟩
  | init =>
      have hen : s.enabled (.thread .initDone) = true := hthread rfl (decide_eq_true hplace)
      exact ⟨.thread .initDone, ⟨hen, trivial⟩, _, rfl, ⟨exec_startInv h hen _ rfl, hcalled⟩,
        Nat.add_lt_add_left (show 1 < 2 by decide) _⟩
  | publish =>
      have hen : s.enabled (.thread .publish) = true := hthread rfl (decide_eq_true hplace)
      refine ⟨.thread .publish, ⟨hen, trivial⟩, _, rfl, ⟨exec_startInv h hen _ rfl, hcalled⟩, ?_⟩
      show s.starter.notify.left + 0 < s.starter.left + 1
      rw [notify_left]
      exact Nat.lt_succ_self _
  | enter | looping | clear | exited => exact absurd hbegun (by simp [hplace, Place.begun])

theorem starter_goes (h : StartInv s) (hcalled : s.thread.quitCalled = false)
    (hreturned : s.starter ≠ .returned true)
    (hbegun : s.starter = .before ∨ s.thread.place.begun = true) :
    ∃ a, (s.enabled a = true ∧ s.Goes a) ∧ Lands (s.exec a) fun s' =>
      (StartInv s' ∧ s'.thread.quitCalled = false) ∧
        s'.starter.left + s'.thread.place.left < s.starter.left + s.thread.place.left := by
  have hpublished : s.starter ≠ .before → s.thread.published = true := fun hne =>
    (published_of_begun h.quit (hbegun.resolve_left hne) hcalled).1
  cases hstarter : s.starter with
  | before =>
      have hen : s.enabled .start = true := decide_eq_true hstarter
      exact ⟨.start, ⟨hen, trivial⟩, _, rfl, ⟨exec_startInv h hen _ rfl, hcalled⟩,
        Nat.add_lt_add_right (show 3 < 4 by decide) _⟩
  | testing =>
      have hen : s.enabled .test = true := decide_eq_true hstarter
      have htest : s.testLoop = { s with starter := .returning } := by
        rw [StartLoop.testLoop, if_pos (hpublished (by simp [hstarter]))]
      refine ⟨.test, ⟨hen, trivial⟩, _, rfl, ⟨exec_startInv h hen _ rfl, ?_⟩, ?_⟩
      · rw [htest]
        exact hcalled
      · rw [htest]
        exact Nat.add_lt_add_right (show 1 < 3 by decide) _
  | waiting signalled =>
      have hp := hpublished (by simp [hstarter])
      obtain rfl : signalled = true := by
        cases signalled with
        | true => rfl
        | false => exact absurd ((h.waiting hstarter).symm.trans hp) (by simp)
      have hen : s.enabled .wake = true := by rw [StartLoop.enabled, hstarter]
      have htest : s.testLoop = { s with starter := .returning } := by
        rw [StartLoop.testLoop, if_pos hp]
      refine ⟨.wake, ⟨hen, hstarter⟩, _, rfl, ⟨exec_startInv h hen _ rfl, ?_⟩, ?_⟩
      · rw [htest]
        exact hcalled
      · rw [htest]
        exact Nat.add_lt_add_right (show 1 < 2 by decide) _
  | returning =>
      have hen : s.enabled .ret = true := decide_eq_true hstarter
      exact ⟨.ret, ⟨hen, trivial⟩, _, rfl, ⟨exec_startInv h hen _ rfl, hcalled⟩,
        Nat.add_lt_add_right (show 0 < 1 by decide) _⟩
  | returned loop =>
      cases loop with
      | true => exact absurd hstarter hreturned
      | false =>
          have hret := h.quit.returned (by rw [h.missed hstarter]; rfl)
          exact absurd (hret.symm.trans hcalled) (by simp)

end Start

/-- What is known of the loop by the caller's place. -/
structure Handshake (s : StartLoop F) : Prop where
  /-- Nothing is missed by a caller that waits, but a loop that is gone. -/
  waiting : s.starter = .waiting false →
    s.thread.place.begun = false ∨ s.thread.place = .exited ∧ s.thread.quitCalled = true
  found : s.starter = .returned true → s.thread.quitCalled = false →
    s.thread.published = true ∧ s.thread.place.alive = true
  missed : s.starter = .returned false → s.thread.place = .exited ∧ s.thread.quitCalled = true

/-- **The handshake.** In every run: a caller that waits and has not been notified waits for
a loop that is still to be published, or for one that was asked to quit and is gone; `NULL`
is returned for such a loop only; and the loop that is returned exists until somebody asks
it to quit. -/
theorem startLoop_handshake (acts : List (StartAct F)) (hlegal : startSys.Legal .new acts) :
    Post (startSys.runFrom .new acts) Handshake := by
  refine (run_startInv hlegal).mono fun s h => ⟨fun hs => ?_, fun hs hcalled => ?_, fun hs => ?_⟩
  · cases hbegun : s.thread.place.begun with
    | false => exact .inl rfl
    | true =>
        have hexited := exited_of_begun h.quit hbegun (h.waiting hs)
        exact .inr ⟨hexited, h.quit.returned (by rw [hexited]; rfl)⟩
  · exact published_of_begun h.quit (h.found hs) hcalled
  · have hexited := h.missed hs
    exact ⟨hexited, h.quit.returned (by rw [hexited]; rfl)⟩

/-- A loop that another thread quits before the notified caller has the mutex: the caller
waits again, for a loop that is gone. -/
theorem startLoop_handshake_missed :
    Lands (startSys.runFrom (.new : StartLoop Unit)
      [.start, .thread .construct, .test, .thread .initDone, .thread .publish,
        .thread (.loop .enter), .thread (.loop (.threadQuit 1)), .thread (.loop .test),
        .thread .clear, .wake]) fun s =>
      s.starter = .waiting false ∧ s.thread.place = .exited ∧ s.thread.quitCalled = true := by
  have hspec := startLoop_handshake (F := Unit)
    [.start, .thread .construct, .test, .thread .initDone, .thread .publish,
      .thread (.loop .enter), .thread (.loop (.threadQuit 1)), .thread (.loop .test),
      .thread .clear, .wake] (by decide)
  have hwaits : Lands (startSys.runFrom (.new : StartLoop Unit)
      [.start, .thread .construct, .test, .thread .initDone, .thread .publish,
        .thread (.loop .enter), .thread (.loop (.threadQuit 1)), .thread (.loop .test),
        .thread .clear, .wake]) fun s =>
      s.starter = .waiting false ∧ s.thread.place.begun = true := by decide
  obtain ⟨s, hs, hwaiting, hbegun⟩ := hwaits
  refine ⟨s, hs, hwaiting, ((hspec s hs).waiting hwaiting).resolve_left ?_⟩
  rw [hbegun]
  exact Bool.noConfusion

/-- **`startLoop` returns.** From every reachable state in which nobody has asked the loop
to quit, `startLoop` comes to return it, by steps of its own and of `threadFunc` and without
a spurious wake-up. -/
theorem startLoop_returns (acts : List (StartAct F)) (hlegal : startSys.Legal .new acts) :
    Post (startSys.runFrom .new acts) fun s => s.thread.quitCalled = false →
      ∃ steps, startSys.Meets (fun s a => s.enabled a = true ∧ s.Goes a) s steps ∧
        Lands (startSys.runFrom s steps) fun s' =>
          s'.starter = .returned true ∧ s'.thread.published = true := by
  refine (run_startInv hlegal).mono fun s h hcalled => ?_
  have hstep : ∀ s : StartLoop F, (StartInv s ∧ s.thread.quitCalled = false) →
      s.starter ≠ .returned true → ∃ a, (s.enabled a = true ∧ s.Goes a) ∧
        Lands (startSys.exec s a) fun s' => (StartInv s' ∧ s'.thread.quitCalled = false) ∧
          s'.starter.left + s'.thread.place.left < s.starter.left + s.thread.place.left := by
    rintro s ⟨h, hcalled⟩ hreturned
    by_cases hbefore : s.starter = .before
    · exact starter_goes h hcalled hreturned (.inl hbefore)
    · cases hbegun : s.thread.place.begun with
      | false => exact place_goes h hcalled hbefore hbegun
      | true => exact starter_goes h hcalled hreturned (.inr hbegun)
  obtain ⟨steps, hmeets, hrun⟩ := Sys.exists_run (S := startSys)
    (fun s : StartLoop F => s.starter.left + s.thread.place.left) hstep ⟨h, hcalled⟩
  refine ⟨steps, hmeets, hrun.mono ?_⟩
  rintro s' ⟨⟨h', hcalled'⟩, hreturned⟩
  exact ⟨hreturned, (published_of_begun h'.quit (h'.found hreturned) hcalled').1⟩

/-- The caller waits before the thread has made its loop. -/
theorem startLoop_returns_waiting :
    Lands (startSys.runFrom (.new : StartLoop Unit) [.start, .test, .wake]) fun s =>
      ∃ steps, Lands (startSys.runFrom s steps) fun s' =>
        s'.starter = .returned true ∧ s'.thread.published = true := by
  have hrun : Lands (startSys.runFrom (.new : StartLoop Unit) [.start, .test, .wake]) fun s =>
      s.thread.quitCalled = false := by decide
  obtain ⟨s, hs, hcalled⟩ := hrun
  obtain ⟨steps, -, hsteps⟩ := startLoop_returns [.start, .test, .wake] (by decide) s hs hcalled
  exact ⟨s, hs, steps, hsteps⟩

end Muduo.Loop
