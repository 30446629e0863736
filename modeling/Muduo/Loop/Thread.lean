import Muduo.Loop.Model

/-!
# A loop in a thread of its own (`EventLoopThread.h`, `EventLoopThread.cpp`)

`threadFunc` makes an `EventLoop` on its stack, runs the init callback, publishes the
pointer and enters `loop()`; `~EventLoopThread` asks that loop to quit and joins the
thread. `loop()` begins with `M_quit = false`. A request made before that, by the init
callback or by another thread that has the pointer already, is forgotten there; one
made later is kept until `loop()` returns.
-/

namespace Muduo.Loop

open Lib EventLoop

variable {F : Type}

/-- Where `threadFunc` is. -/
inductive Place
  /-- Before the construction of `loop`. -/
  | start
  /-- Before `M_callback(&loop)`, or in it. -/
  | init
  /-- Before the critical section. -/
  | publish
  /-- Before `loop.loop()`. -/
  | enter
  | looping
  /-- Before `M_loop = NULL`. -/
  | clear
  | exited
  deriving DecidableEq, Repr

/-- Where `~EventLoopThread` is; `t` is the thread that runs it. -/
inductive Dtor
  | none
  /-- Before `M_loop->quit()`. -/
  | quitting (t : Nat)
  /-- In `quit()`, before `wakeup()`. -/
  | waking (t : Nat)
  | joining
  | done
  deriving DecidableEq, Repr

/-- A dereference of `M_loop` when it is `NULL`, or of the loop when it is gone, and
the assertion of `loop()`. -/
inductive ThreadFault
  | nullLoop
  | danglingLoop
  | loop (e : Assert)
  deriving DecidableEq, Repr

structure EventLoopThread (F : Type) where
  place : Place
  /-- The object on the stack of `threadFunc`, from its construction on. -/
  object : EventLoop F
  /-- `M_loop != NULL`. -/
  published : Bool
  dtor : Dtor
  /-- `quit()` has been called on the loop; no function reads it. -/
  quitCalled : Bool
  /-- The polls started after a call of `quit()`; no function reads it. -/
  latePolls : Nat

/-- The thread has been started. -/
def EventLoopThread.new : EventLoopThread F where
  place := .start
  object := .new
  published := false
  dtor := .none
  quitCalled := false
  latePolls := 0

inductive ThreadAct (F : Type)
  | construct
  /-- The init callback calls `quit()`. -/
  | initQuit
  /-- The init callback calls `queueInLoop(f)`. -/
  | initQueue (f : F)
  /-- The init callback returns, or there is none. -/
  | initDone
  | publish
  /-- A step of the loop: of `loop()`, or of another thread that calls it. -/
  | loop (a : Act F)
  /-- `M_loop = NULL`, and `threadFunc` returns. -/
  | clear
  /-- `~EventLoopThread`, in thread `t`: the test of `M_loop`. -/
  | destroy (t : Nat)
  | dtorQuit
  | dtorWakeup
  | join
  deriving DecidableEq, Repr

/-- The step of the loop is a call of `quit()`. -/
def Act.quits : Act F → Bool
  | .quit | .threadQuit _ => true
  | _ => false

/-- The step is a piece of a call that another thread makes. -/
def Act.ofThread : Act F → Bool
  | .threadQueue _ _ | .threadWakeup _ | .threadQuit _ | .threadQuitWakeup _ => true
  | _ => false

/-- The step is `loop()` being entered. -/
def Act.enters : Act F → Bool
  | .enter => true
  | _ => false

def ThreadAct.enters : ThreadAct F → Bool
  | .loop a => a.enters
  | _ => false

/-- `loop()` has returned. -/
def Place.returned : Place → Bool
  | .clear | .exited => true
  | _ => false

/-- The loop exists. -/
def Place.alive : Place → Bool
  | .start | .exited => false
  | _ => true

namespace EventLoopThread

/-- Where `threadFunc` is after a step of the loop: `loop()` has been entered, or has
returned. -/
def placeAfter (s : EventLoopThread F) (a : Act F) (object : EventLoop F) : Place :=
  if a.enters then .looping
  else if s.place = .looping ∧ (object.pc matches .idle) = true then .clear
  else s.place

def step (s : EventLoopThread F) (a : Act F) : Except ThreadFault (EventLoopThread F) := do
  let object ← (Loop.exec s.object a).mapError .loop
  return { s with
    object := object
    place := s.placeAfter a object
    quitCalled := s.quitCalled || a.quits
    latePolls := s.latePolls + if s.quitCalled && (a matches .test) && (object.pc matches .poll)
      then 1 else 0 }

/-- The body of `~EventLoopThread`, up to `M_loop->quit()`. -/
def destroy (s : EventLoopThread F) (t : Nat) : EventLoopThread F :=
  { s with dtor := if s.published then .quitting t else .done }

def dtorQuit (s : EventLoopThread F) : Except ThreadFault (EventLoopThread F) :=
  match s.dtor with
  | .quitting t => do
      check .nullLoop (s.published = true)
      return { s with
        object := s.object.threadQuit t, quitCalled := true, dtor := .waking t }
  | _ => .ok s

def dtorWakeup (s : EventLoopThread F) : Except ThreadFault (EventLoopThread F) :=
  match s.dtor with
  | .waking t => do
      check .danglingLoop (s.place ≠ .exited)
      return { s with object := s.object.threadQuitWakeup t, dtor := .joining }
  | _ => .ok s

def exec (s : EventLoopThread F) : ThreadAct F → Except ThreadFault (EventLoopThread F)
  | .construct => .ok { s with object := .new, place := .init }
  | .initQuit => .ok { s with object := { s.object with quit := true }, quitCalled := true }
  | .initQueue f => .ok { s with object := s.object.push f }
  | .initDone => .ok { s with place := .publish }
  | .publish => .ok { s with published := true, place := .enter }
  | .loop a => s.step a
  | .clear => .ok { s with published := false, place := .exited }
  | .destroy t => .ok (s.destroy t)
  | .dtorQuit => s.dtorQuit
  | .dtorWakeup => s.dtorWakeup
  | .join => .ok { s with dtor := .done }

/-- Other threads may call the loop while it exists; the rest follows `threadFunc` and
`~EventLoopThread`. -/
def enabled (s : EventLoopThread F) : ThreadAct F → Bool
  | .construct => s.place = .start
  | .initQuit | .initQueue _ | .initDone => s.place = .init
  | .publish => s.place = .publish
  | .loop a => Loop.enabled s.object a &&
      if a.enters then s.place = .enter
      else if a.ofThread then s.place.alive
      else s.place = .looping
  | .clear => s.place = .clear
  | .destroy t => s.dtor = .none && !s.object.waking.elem t && !s.object.quitting.elem t
  | .dtorQuit => (s.dtor matches .quitting _)
  | .dtorWakeup => (s.dtor matches .waking _)
  | .join => s.dtor = .joining && s.place = .exited

end EventLoopThread

def threadSys : Sys (EventLoopThread F) (ThreadAct F) ThreadFault :=
  ⟨fun s a => s.enabled a = true, EventLoopThread.exec⟩

instance (s : EventLoopThread F) (a : ThreadAct F) : Decidable (threadSys.enabled s a) :=
  inferInstanceAs (Decidable (s.enabled a = true))

/-! ## Requests to quit -/

/-- A request to quit is not lost: `M_quit` stays true until `loop()` returns, no poll
is started after the request, and `~EventLoopThread` waits for no loop that has
forgotten it. -/
structure Remembered (s : EventLoopThread F) : Prop where
  quit : s.quitCalled = true → s.place.returned = false → s.object.quit = true
  polls : s.latePolls = 0
  join : s.dtor = .joining → s.place.returned = false → s.object.quit = true

/-- `loop()` is not entered after a request to quit. -/
def EntersFirst (s : EventLoopThread F) (a : ThreadAct F) : Prop :=
  a.enters = true → s.quitCalled = false

instance (s : EventLoopThread F) : Decidable (Remembered s) :=
  decidable_of_iff ((s.quitCalled = true → s.place.returned = false → s.object.quit = true) ∧
      s.latePolls = 0 ∧ (s.dtor = .joining → s.place.returned = false → s.object.quit = true))
    ⟨fun ⟨h₁, h₂, h₃⟩ => ⟨h₁, h₂, h₃⟩, fun ⟨h₁, h₂, h₃⟩ => ⟨h₁, h₂, h₃⟩⟩

instance (s : EventLoopThread F) (a : ThreadAct F) : Decidable (EntersFirst s a) :=
  inferInstanceAs (Decidable (_ → _))

structure ThreadInv (s : EventLoopThread F) : Prop where
  start : s.place = .start → s.quitCalled = false
  published : s.published = true → s.place ≠ .start
  dtor : (∃ t, s.dtor = .waking t) ∨ s.dtor = .joining → s.quitCalled = true
  idle : s.place.returned = false → s.place ≠ .looping → s.object.looping = false

section Steps

variable {s : EventLoopThread F}

/-- `M_quit` is written by `quit()`, and by `loop()` when it begins. -/
theorem exec_quit {l l' : EventLoop F} {a : Act F} (ha : a.enters = false)
    (h : Loop.exec l a = .ok l') : l'.quit = (l.quit || a.quits) := by
  cases a with
  | enter => exact absurd ha (by simp [Act.enters])
  | test =>
      obtain rfl := Except.ok.inj h
      unfold EventLoop.test
      split
      · simp [Act.quits]
      · simp [Act.quits, setPc]
  | dispatch =>
      obtain rfl := Except.ok.inj h
      unfold EventLoop.dispatch
      split
      · simp [Act.quits, setPc, handleRead]
      · simp [Act.quits, setPc]
      · simp [Act.quits]
  | call =>
      obtain rfl := Except.ok.inj h
      unfold EventLoop.call
      split
      · simp [Act.quits]
      · simp [Act.quits]
  | queueEnd =>
      obtain rfl := Except.ok.inj h
      unfold EventLoop.queueEnd
      dsimp only
      split
      · simp [Act.quits, wakeup]
      · simp [Act.quits]
  | quit | threadQuit t =>
      obtain rfl := Except.ok.inj h
      simp [Act.quits, threadQuit]
  | _ =>
      obtain rfl := Except.ok.inj h
      simp [Act.quits, pollReturn, beginPending, swap, endPending, queue, push, threadQueue,
        threadWakeup, threadQuitWakeup, wakeup]

/-- A loop that has been asked to quit starts no poll. -/
theorem test_of_quit {l : EventLoop F} (h : l.quit = true) : l.test.pc = .idle := by
  unfold EventLoop.test
  rw [if_pos h]

/-- A loop that is called exists. -/
theorem ne_start_of_loop {a : Act F} (hen : s.enabled (.loop a) = true) : s.place ≠ .start := by
  intro hs
  simp only [EventLoopThread.enabled, hs, Bool.and_eq_true] at hen
  obtain ⟨-, hplace⟩ := hen
  split at hplace
  · exact absurd hplace (by simp)
  · split at hplace
    · exact absurd hplace (by simp [Place.alive])
    · exact absurd hplace (by simp)

/-- Outside `loop()`, the steps of the loop are calls that other threads make. -/
theorem ofThread_of_ne_looping {a : Act F} (ha : a.enters = false)
    (hen : s.enabled (.loop a) = true) (hplace : s.place ≠ .looping) : a.ofThread = true := by
  simp only [EventLoopThread.enabled, ha, Bool.false_eq_true, if_false, Bool.and_eq_true] at hen
  obtain ⟨-, hen⟩ := hen
  split at hen
  · assumption
  · exact absurd (of_decide_eq_true hen) hplace

theorem placeAfter_of_enters {a : Act F} (ha : a.enters = true) (object : EventLoop F) :
    s.placeAfter a object = .looping := if_pos ha

/-- Such a call leaves `threadFunc` where it is. -/
theorem placeAfter_of_ne_looping {a : Act F} (ha : a.enters = false) (hplace : s.place ≠ .looping)
    (object : EventLoop F) : s.placeAfter a object = s.place := by
  unfold EventLoopThread.placeAfter
  rw [if_neg (by simp [ha]), if_neg fun h => hplace h.1]

theorem placeAfter_of_looping {a : Act F} (ha : a.enters = false) (hplace : s.place = .looping)
    (object : EventLoop F) :
    s.placeAfter a object = .clear ∨ s.placeAfter a object = .looping := by
  unfold EventLoopThread.placeAfter
  rw [if_neg (by simp [ha])]
  by_cases hidle : s.place = .looping ∧ (object.pc matches .idle) = true
  · exact .inl (if_pos hidle)
  · exact .inr ((if_neg hidle).trans hplace)

/-- Other threads do not write `M_looping`. -/
theorem looping_of_ofThread {l l' : EventLoop F} {a : Act F} (ha : a.ofThread = true)
    (h : Loop.exec l a = .ok l') : l'.looping = l.looping := by
  cases a with
  | threadQueue t f | threadWakeup t | threadQuit t | threadQuitWakeup t =>
      obtain rfl := Except.ok.inj h
      rfl
  | _ => exact absurd ha (by simp [Act.ofThread])

/-- A step of the loop keeps the invariant. -/
theorem step_threadInv (h : ThreadInv s) {a : Act F} (hen : s.enabled (.loop a) = true) :
    Post (s.step a) ThreadInv := by
  intro s' hs'
  obtain ⟨object, hexec, hs'⟩ := bind_eq_ok hs'
  obtain rfl := Except.ok.inj hs'
  have hstart := ne_start_of_loop hen
  have hdtor : (∃ t, s.dtor = .waking t) ∨ s.dtor = .joining →
      (s.quitCalled || a.quits) = true := by
    intro hd
    rw [h.dtor hd, Bool.true_or]
  cases ha : a.enters with
  | true =>
      have hplace := placeAfter_of_enters (s := s) ha object
      exact ⟨fun hs => absurd (hplace.symm.trans hs) (by simp),
        fun _ hs => absurd (hplace.symm.trans hs) (by simp), hdtor, fun _ hne => absurd hplace hne⟩
  | false =>
      by_cases hlooping : s.place = .looping
      · rcases placeAfter_of_looping ha hlooping object with hplace | hplace
        · refine ⟨fun hs => absurd (hplace.symm.trans hs) (by simp),
            fun _ hs => absurd (hplace.symm.trans hs) (by simp), hdtor, fun hret _ => ?_⟩
          exact absurd ((congrArg Place.returned hplace).symm.trans hret) (by simp [Place.returned])
        · exact ⟨fun hs => absurd (hplace.symm.trans hs) (by simp),
            fun _ hs => absurd (hplace.symm.trans hs) (by simp), hdtor,
            fun _ hne => absurd hplace hne⟩
      · have hplace := placeAfter_of_ne_looping ha hlooping object
        refine ⟨fun hs => absurd (hplace.symm.trans hs) hstart,
          fun _ hs => hstart (hplace.symm.trans hs), hdtor, fun hret _ => ?_⟩
        have hsame := looping_of_ofThread (ofThread_of_ne_looping ha hen hlooping)
          (mapError_eq_ok hexec)
        exact hsame.trans (h.idle ((congrArg Place.returned hplace).symm.trans hret) hlooping)

theorem exec_threadInv (h : ThreadInv s) {a : ThreadAct F} (hen : s.enabled a = true) :
    Post (s.exec a) ThreadInv := by
  cases a with
  | construct =>
      exact .ok ⟨fun hs => absurd hs (by simp), fun _ => by simp, h.dtor, fun _ _ => rfl⟩
  | initQuit =>
      have hinit : s.place = .init := of_decide_eq_true hen
      exact .ok ⟨fun hs => absurd (hinit.symm.trans hs) (by simp), h.published, fun _ => rfl,
        h.idle⟩
  | initQueue f => exact .ok ⟨h.start, h.published, h.dtor, h.idle⟩
  | initDone =>
      have hinit : s.place = .init := of_decide_eq_true hen
      refine .ok ⟨fun hs => absurd hs (by simp), fun _ => by simp, h.dtor, fun _ _ => ?_⟩
      exact h.idle (by rw [hinit]; rfl) (by simp [hinit])
  | publish =>
      have hpublish : s.place = .publish := of_decide_eq_true hen
      refine .ok ⟨fun hs => absurd hs (by simp), fun _ => by simp, h.dtor, fun _ _ => ?_⟩
      exact h.idle (by rw [hpublish]; rfl) (by simp [hpublish])
  | clear =>
      exact .ok ⟨fun hs => absurd hs (by simp), fun hp => absurd hp (by simp), h.dtor,
        fun hret => absurd hret (by simp [Place.returned])⟩
  | loop a => exact step_threadInv h hen
  | destroy t =>
      refine .ok ⟨h.start, h.published, fun hd => ?_, h.idle⟩
      simp only [EventLoopThread.destroy] at hd
      split at hd
      · rcases hd with ⟨t', hd⟩ | hd
        · exact absurd hd (by simp)
        · exact absurd hd (by simp)
      · rcases hd with ⟨t', hd⟩ | hd
        · exact absurd hd (by simp)
        · exact absurd hd (by simp)
  | dtorQuit =>
      simp only [EventLoopThread.exec, EventLoopThread.dtorQuit]
      split
      · refine .check_bind fun hpublished => .ok ⟨fun hs => ?_, h.published, fun _ => rfl, h.idle⟩
        exact absurd hs (h.published hpublished)
      · exact .ok h
  | dtorWakeup =>
      simp only [EventLoopThread.exec, EventLoopThread.dtorWakeup]
      split
      · rename_i t hd
        exact .check_bind fun _ =>
          .ok ⟨h.start, h.published, fun _ => h.dtor (.inl ⟨t, hd⟩), h.idle⟩
      · exact .ok h
  | join =>
      refine .ok ⟨h.start, h.published, fun hd => ?_, h.idle⟩
      rcases hd with ⟨t, hd⟩ | hd
      · exact absurd hd (by simp)
      · exact absurd hd (by simp)

/-- `loop()` begins: what has been asked for is forgotten. -/
theorem enter_remembered (hi : ThreadInv s) (h : Remembered s) :
    Post (s.step .enter) fun s' => (Remembered s' ↔ s.quitCalled = false) := by
  intro s' hs'
  obtain ⟨object, hexec, hs'⟩ := bind_eq_ok hs'
  obtain ⟨u, -, hobject⟩ := bind_eq_ok (mapError_eq_ok hexec)
  obtain rfl := Except.ok.inj hobject
  obtain rfl := Except.ok.inj hs'
  constructor
  · intro h'
    by_contra hcalled
    have hquit := h'.quit (by simp [hcalled]) rfl
    exact absurd hquit (by simp)
  · intro hcalled
    refine ⟨fun hq => ?_, by simp [h.polls], fun hd => ?_⟩
    · exact absurd hq (by simp [hcalled, Act.quits])
    · rw [hi.dtor (.inr hd)] at hcalled
      exact absurd hcalled (by simp)

/-- Every other step of the loop remembers it. -/
theorem step_remembered (hi : ThreadInv s) (h : Remembered s) {a : Act F} (ha : a.enters = false)
    (hen : s.enabled (.loop a) = true) : Post (s.step a) Remembered := by
  intro s' hs'
  obtain ⟨object, hexec, hs'⟩ := bind_eq_ok hs'
  obtain rfl := Except.ok.inj hs'
  have hexec := mapError_eq_ok hexec
  have hquit := exec_quit ha hexec
  have hreturned : s.place.returned = true → (s.placeAfter a object).returned = true := by
    intro hret
    have hne : s.place ≠ .looping := by
      intro hs
      exact absurd ((congrArg Place.returned hs).symm.trans hret) (by simp [Place.returned])
    rw [placeAfter_of_ne_looping ha hne, hret]
  have hkept : s.quitCalled = true → (s.placeAfter a object).returned = false →
      object.quit = true := by
    intro hcalled hret
    cases hplace : s.place.returned with
    | true => exact absurd ((hreturned hplace).symm.trans hret) (by simp)
    | false => rw [hquit, h.quit hcalled hplace, Bool.true_or]
  refine ⟨fun hcalled hret => ?_, ?_, fun hd => hkept (hi.dtor (.inr hd))⟩
  · rcases Bool.or_eq_true_iff.mp hcalled with hcalled | hcalled
    · exact hkept hcalled hret
    · rw [hquit, hcalled, Bool.or_true]
  · show s.latePolls + _ = 0
    rw [h.polls, Nat.zero_add]
    refine if_neg fun hlate => ?_
    simp only [Bool.and_eq_true] at hlate
    obtain ⟨⟨hcalled, htest⟩, hpoll⟩ := hlate
    cases a with
    | test =>
        -- the test is made in `loop()`
        have hlooping : s.place = .looping := by
          by_contra hne
          exact absurd (ofThread_of_ne_looping ha hen hne) (by simp [Act.ofThread])
        obtain rfl := Except.ok.inj hexec
        rw [test_of_quit (h.quit hcalled (by rw [hlooping]; rfl))] at hpoll
        exact absurd hpoll (by simp)
    | _ => exact absurd htest (by simp)

/-- A step remembers what has been asked for, unless it is a beginning of `loop()`
after a request. -/
theorem exec_remembered (hi : ThreadInv s) (h : Remembered s) {a : ThreadAct F}
    (hen : s.enabled a = true) :
    Post (s.exec a) fun s' => (Remembered s' ↔ EntersFirst s a) := by
  have hkeeps : ∀ {b : ThreadAct F} {x : Except ThreadFault (EventLoopThread F)},
      b.enters = false → Post x Remembered → Post x fun s' => (Remembered s' ↔ EntersFirst s b) := by
    intro b x hb hx
    refine hx.mono fun s' h' => iff_of_true h' fun henter => ?_
    exact absurd (hb.symm.trans henter) (by simp)
  cases a with
  | loop a =>
      cases ha : a.enters with
      | true =>
          obtain rfl : a = .enter := by
            cases a with
            | enter => rfl
            | _ => exact absurd ha (by simp [Act.enters])
          refine (enter_remembered hi h).mono fun s' h' => h'.trans ?_
          exact ⟨fun hcalled _ => hcalled, fun hfirst => hfirst rfl⟩
      | false => exact hkeeps ha (step_remembered hi h ha hen)
  | construct =>
      refine hkeeps rfl (.ok ⟨fun hcalled => ?_, h.polls, fun hd => ?_⟩)
      · rw [hi.start (of_decide_eq_true hen)] at hcalled
        exact absurd hcalled (by simp)
      · have hcalled := hi.dtor (.inr hd)
        rw [hi.start (of_decide_eq_true hen)] at hcalled
        exact absurd hcalled (by simp)
  | initQuit => exact hkeeps rfl (.ok ⟨fun _ _ => rfl, h.polls, fun _ _ => rfl⟩)
  | initQueue f => exact hkeeps rfl (.ok ⟨h.quit, h.polls, h.join⟩)
  | initDone =>
      have hinit : s.place = .init := of_decide_eq_true hen
      have hplace : s.place.returned = false := by rw [hinit]; rfl
      exact hkeeps rfl (.ok ⟨fun hcalled _ => h.quit hcalled hplace, h.polls,
        fun hd _ => h.join hd hplace⟩)
  | publish =>
      have hpublish : s.place = .publish := of_decide_eq_true hen
      have hplace : s.place.returned = false := by rw [hpublish]; rfl
      exact hkeeps rfl (.ok ⟨fun hcalled _ => h.quit hcalled hplace, h.polls,
        fun hd _ => h.join hd hplace⟩)
  | clear =>
      exact hkeeps rfl (.ok ⟨fun _ hr => absurd hr (by simp [Place.returned]), h.polls,
        fun _ hr => absurd hr (by simp [Place.returned])⟩)
  | destroy t =>
      refine hkeeps rfl (.ok ⟨h.quit, h.polls, fun hd => ?_⟩)
      simp only [EventLoopThread.destroy] at hd
      split at hd
      · exact absurd hd (by simp)
      · exact absurd hd (by simp)
  | dtorQuit =>
      refine hkeeps rfl ?_
      simp only [EventLoopThread.exec, EventLoopThread.dtorQuit]
      split
      · exact .check_bind fun _ => .ok ⟨fun _ _ => rfl, h.polls, fun hd => absurd hd (by simp)⟩
      · exact .ok h
  | dtorWakeup =>
      refine hkeeps rfl ?_
      simp only [EventLoopThread.exec, EventLoopThread.dtorWakeup]
      split
      · rename_i t hd
        have hcalled := hi.dtor (.inl ⟨t, hd⟩)
        exact .check_bind fun _ => .ok ⟨h.quit, h.polls, fun _ hplace => h.quit hcalled hplace⟩
      · exact .ok h
  | join => exact hkeeps rfl (.ok ⟨h.quit, h.polls, fun hd => absurd hd (by simp)⟩)

/-- The assertion of `loop()` holds in `threadFunc`. -/
theorem not_error_of_enters (hi : ThreadInv s) {a : ThreadAct F} (hen : s.enabled a = true)
    (ha : a.enters = true) (e : ThreadFault) : s.exec a ≠ .error e := by
  cases a with
  | loop a =>
      cases a with
      | enter =>
          have hplace : s.place = .enter := by
            simp only [EventLoopThread.enabled, Act.enters, if_true, Bool.and_eq_true] at hen
            exact of_decide_eq_true hen.2
          have hlooping := hi.idle (by rw [hplace]; rfl) (by simp [hplace])
          intro he
          simp [EventLoopThread.exec, EventLoopThread.step, Loop.exec, EventLoop.enter, hlooping,
            Except.mapError] at he
      | _ => exact absurd ha (by simp [ThreadAct.enters, Act.enters])
  | _ => exact absurd ha (by simp [ThreadAct.enters])

end Steps

theorem new_threadInv : ThreadInv (EventLoopThread.new : EventLoopThread F) :=
  ⟨fun _ => rfl, fun hp => absurd hp (by simp [EventLoopThread.new]), fun hd => by
    rcases hd with ⟨t, hd⟩ | hd
    · exact absurd hd (by simp [EventLoopThread.new])
    · exact absurd hd (by simp [EventLoopThread.new]), fun _ _ => rfl⟩

theorem new_remembered : Remembered (EventLoopThread.new : EventLoopThread F) :=
  ⟨fun hcalled => absurd hcalled (by simp [EventLoopThread.new]), rfl,
    fun hd => absurd hd (by simp [EventLoopThread.new])⟩

/-- **Requests to quit are remembered if `loop()` has begun.** Along a run, no request
is lost, at any point, if and only if `loop()` is not entered after one. -/
theorem quit_remembered_iff (acts : List (ThreadAct F)) (hlegal : threadSys.Legal .new acts) :
    (∀ pre, pre <+: acts → Post (threadSys.runFrom .new pre) Remembered) ↔
      threadSys.Meets EntersFirst (EventLoopThread.new : EventLoopThread F) acts := by
  refine Sys.always_iff_meets_of_invariant (S := threadSys) (I := ThreadInv) ?_ ?_ ?_
    new_threadInv new_remembered hlegal
  · intro s a hi hen
    exact exec_threadInv hi (a := a) hen
  · intro s a hi h hen
    exact exec_remembered hi h (a := a) hen
  · -- `loop()` is entered with `M_looping` false, so no run stops there
    intro s a e hi hen he henters
    exact absurd he (not_error_of_enters hi hen henters e)

/-- The init callback returns, `loop()` begins, and `~EventLoopThread` stops it. -/
theorem quit_remembered_iff_begun :
    Post (threadSys.runFrom (.new : EventLoopThread Unit)
      [.construct, .initDone, .publish, .loop .enter, .destroy 1, .dtorQuit, .dtorWakeup,
        .loop .test, .clear, .join]) Remembered :=
  (quit_remembered_iff _ (by decide)).mpr (by decide) _ List.prefix_rfl

/-- `~EventLoopThread` runs between the publication of the loop and its beginning. -/
def earlyDestroy : List (ThreadAct Unit) :=
  [.construct, .initDone, .publish, .destroy 1, .dtorQuit, .dtorWakeup, .loop .enter, .loop .test]

/-- The request is forgotten: a poll is started, and the destructor waits for it. -/
theorem quit_forgotten :
    threadSys.Legal .new earlyDestroy ∧
      Lands (threadSys.runFrom .new earlyDestroy) fun s =>
        ¬ Remembered s ∧ s.dtor = .joining ∧ s.object.quit = false ∧ s.object.pc = .poll ∧
          s.latePolls = 1 := by
  decide

end Muduo.Loop
