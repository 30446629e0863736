import Mathlib.Data.Int.Basic
import Muduo.Lib.System
import Muduo.Net.Sockets

/-!
# The acceptor (`Acceptor.cpp`, `sockets::accept`, `setNonBlockAndCloseOnExec`)

`errno` is a variable of the process that every failing system call overwrites, and the
descriptors are a table of the process; a system call that makes a descriptor takes its
result as an argument. `handleRead` keeps a descriptor of `/dev/null` in reserve: when
`accept` fails with `EMFILE`, it gives that one up to accept the pending connection and
close it. It learns of the failure through `errno`, and `sockets::accept` makes four calls
of `fcntl` in between.

The peer's address is the subject of `Muduo.Net.Address`; the log leaves `errno` alone.
-/

namespace Muduo

namespace Errno

/-! The error numbers that `sockets::accept` and `handleRead` tell apart in addition;
`EAGAIN` is `EWOULDBLOCK`. -/

@[match_pattern] def EMFILE : Errno := .other 24

@[match_pattern] def EPROTO : Errno := .other 71

@[match_pattern] def ECONNABORTED : Errno := .other 103

end Errno

namespace Net

open Lib

/-- What a descriptor refers to. -/
inductive File
  /-- `/dev/null`. -/
  | null
  /-- A connection that the acceptor has accepted; `passed` says whether
  `M_newConnectionCallback` has been called with it. -/
  | connection (passed : Bool)
  | other
  deriving DecidableEq, Repr

/-- What a call that makes a descriptor returns. -/
abbrev FdResult := Except Errno Int

structure Process where
  errno : Errno
  fds : Int → Option File

namespace Process

def setErrno (p : Process) (errno : Errno) : Process := { p with errno := errno }

def install (p : Process) (fd : Int) (file : File) : Process :=
  { p with fds := Function.update p.fds fd (some file) }

/-- `::fcntl` with one of the four commands used; the flags are not modelled. -/
def fcntl (p : Process) (fd : Int) : Process :=
  if p.fds fd = none then p.setErrno .EBADF else p

/-- `::close`. -/
def close (p : Process) (fd : Int) : Process :=
  if p.fds fd = none then p.setErrno .EBADF else { p with fds := Function.update p.fds fd none }

/-- A call that makes a descriptor of `file`: its value, and the process after it. -/
def make (p : Process) (file : File) : FdResult → Int × Process
  | .ok fd => (fd, p.install fd file)
  | .error errno => (-1, p.setErrno errno)

/-- `::accept`. -/
def accept (p : Process) (r : FdResult) : Int × Process := p.make (.connection false) r

/-- `::open("/dev/null", O_RDONLY | O_CLOEXEC)`. -/
def openNull (p : Process) (r : FdResult) : Int × Process := p.make .null r

/-- `F_GETFL`, `F_SETFL`, `F_GETFD` and `F_SETFD`; no result is tested. -/
def setNonBlockAndCloseOnExec (p : Process) (sockfd : Int) : Process :=
  (((p.fcntl sockfd).fcntl sockfd).fcntl sockfd).fcntl sockfd

/-- The `switch` of `sockets::accept`: `errno = savedErrno` for these, nothing for the
others. -/
def restoreErrno (p : Process) (savedErrno : Errno) : Process :=
  match savedErrno with
  | .EWOULDBLOCK | .ECONNABORTED | .EINTR | .EPROTO | .EPERM | .EMFILE => p.setErrno savedErrno
  | _ => p

/-- The end of `sockets::accept`. -/
def afterAccept (p : Process) (connfd : Int) : Process :=
  if connfd < 0 then p.restoreErrno p.errno else p

/-- `sockets::accept`, and `Socket::accept`. -/
def socketsAccept (p : Process) (r : FdResult) : Int × Process :=
  ((p.accept r).1,
    ((p.accept r).2.setNonBlockAndCloseOnExec (p.accept r).1).afterAccept (p.accept r).1)

/-- A call that makes a descriptor makes a new one. -/
def Fresh (p : Process) : FdResult → Prop
  | .ok fd => 0 ≤ fd ∧ p.fds fd = none
  | .error _ => True

instance (p : Process) : ∀ r, Decidable (p.Fresh r)
  | .ok fd => inferInstanceAs (Decidable (0 ≤ fd ∧ p.fds fd = none))
  | .error _ => inferInstanceAs (Decidable True)

end Process

structure Acceptor where
  process : Process
  idleFd : Int
  /-- `M_newConnectionCallback` is set. -/
  callback : Bool
  /-- The `errno` of the last `accept`, if it failed; no function reads it. -/
  kernelErrno : Option Errno
  /-- The `errno` that the last `handleRead` tested; no function reads it. -/
  testedErrno : Option Errno
  /-- The calls of `accept` that failed with `EMFILE`; no function reads it. -/
  exhausted : Nat
  /-- The runs of the branch for it; no function reads it. -/
  sheds : Nat
  /-- `M_idleFd` is what the last `open` of `/dev/null` made; no function reads it. -/
  reopened : Bool

/-- What the system calls of one `handleRead` return: the first `accept`, and in the
branch for `EMFILE` the second one and `open`. -/
structure ReadResults where
  accept : FdResult
  shed : FdResult
  reopen : FdResult

namespace Acceptor

/-- The constructor, in a process with no other descriptor; it asserts that `open` has
made one. -/
def new (idleFd : Nat) : Acceptor where
  process := ⟨.other 0, Function.update (fun _ => none) idleFd (some .null)⟩
  idleFd := idleFd
  callback := false
  kernelErrno := none
  testedErrno := none
  exhausted := 0
  sheds := 0
  reopened := true

/-- The error number of a call that failed. -/
def failure? : FdResult → Option Errno
  | .ok _ => none
  | .error errno => some errno

/-- `M_acceptSocket.accept(&peerAddr)`: the state after it. -/
def accept (s : Acceptor) (r : FdResult) : Acceptor :=
  { s with
    process := (s.process.socketsAccept r).2
    kernelErrno := failure? r
    testedErrno := none
    exhausted := s.exhausted + if failure? r = some .EMFILE then 1 else 0 }

/-- `if(connfd >= 0)`. -/
def handleNew (s : Acceptor) (connfd : Int) : Acceptor :=
  if s.callback then { s with process := s.process.install connfd (.connection true) }
  else { s with process := s.process.close connfd }

/-- `::close(M_idleFd)`. -/
def closeIdle (s : Acceptor) : Acceptor := { s with process := s.process.close s.idleFd }

/-- `M_idleFd = ::accept(M_acceptSocket.fd(), NULL, NULL)`. -/
def acceptIdle (s : Acceptor) (r : FdResult) : Acceptor :=
  { s with process := (s.process.accept r).2, idleFd := (s.process.accept r).1 }

/-- `M_idleFd = ::open("/dev/null", O_RDONLY | O_CLOEXEC)`. -/
def openIdle (s : Acceptor) (r : FdResult) : Acceptor :=
  { s with
    process := (s.process.openNull r).2
    idleFd := (s.process.openNull r).1
    reopened := failure? r = none }

/-- The branch for `EMFILE`. -/
def shed (s : Acceptor) (r : ReadResults) : Acceptor :=
  (s.closeIdle.acceptIdle r.shed).closeIdle.openIdle r.reopen

/-- `if(errno == EMFILE)`. -/
def handleFailure (s : Acceptor) (r : ReadResults) : Acceptor :=
  if s.process.errno = .EMFILE then
    { s with testedErrno := some s.process.errno, sheds := s.sheds + 1 }.shed r
  else { s with testedErrno := some s.process.errno }

def handleRead (s : Acceptor) (r : ReadResults) : Acceptor :=
  if (s.process.socketsAccept r.accept).1 ≥ 0 then
    (s.accept r.accept).handleNew (s.process.socketsAccept r.accept).1
  else (s.accept r.accept).handleFailure r

/-- Every descriptor that `handleRead` is given is a new one. -/
def Fresh (s : Acceptor) (r : ReadResults) : Prop :=
  s.process.Fresh r.accept ∧
    (s.accept r.accept).closeIdle.process.Fresh r.shed ∧
    ((s.accept r.accept).closeIdle.acceptIdle r.shed).closeIdle.process.Fresh r.reopen

instance (s : Acceptor) (r : ReadResults) : Decidable (s.Fresh r) :=
  inferInstanceAs (Decidable (_ ∧ _ ∧ _))

end Acceptor

inductive AcceptorAct
  /-- The listening socket is readable. -/
  | handleRead (r : ReadResults)
  | setNewConnectionCallback
  /-- The rest of the program makes a descriptor. -/
  | openFd (fd : Int)
  /-- The rest of the program closes a descriptor it owns. -/
  | closeFd (fd : Int)

namespace Acceptor

def exec (s : Acceptor) : AcceptorAct → Except Empty Acceptor
  | .handleRead r => .ok (s.handleRead r)
  | .setNewConnectionCallback => .ok { s with callback := true }
  | .openFd fd => .ok { s with process := s.process.install fd .other }
  | .closeFd fd => .ok { s with process := s.process.close fd }

/-- The acceptor owns its reserve, and a connection until it has passed it on. -/
def Enabled (s : Acceptor) : AcceptorAct → Prop
  | .handleRead r => s.Fresh r
  | .setNewConnectionCallback => True
  | .openFd fd => s.process.Fresh (.ok fd)
  | .closeFd fd => fd ≠ s.idleFd ∧
      (s.process.fds fd = some (.connection true) ∨ s.process.fds fd = some .other)

instance (s : Acceptor) : ∀ a, Decidable (s.Enabled a)
  | .handleRead r => inferInstanceAs (Decidable (s.Fresh r))
  | .setNewConnectionCallback => inferInstanceAs (Decidable True)
  | .openFd fd => inferInstanceAs (Decidable (s.process.Fresh (.ok fd)))
  | .closeFd fd => inferInstanceAs (Decidable (fd ≠ s.idleFd ∧ (_ ∨ _)))

end Acceptor

def acceptorSys : Sys Acceptor AcceptorAct Empty := ⟨Acceptor.Enabled, Acceptor.exec⟩

instance (s : Acceptor) (a : AcceptorAct) : Decidable (acceptorSys.enabled s a) :=
  inferInstanceAs (Decidable (s.Enabled a))

/-! ## Descriptors -/

section Descriptors

variable {p : Process} {s : Acceptor} {r : ReadResults}

@[simp] theorem Process.fcntl_fds (p : Process) (fd : Int) : (p.fcntl fd).fds = p.fds := by
  unfold Process.fcntl
  split
  · rfl
  · rfl

@[simp] theorem Process.setNonBlockAndCloseOnExec_fds (p : Process) (fd : Int) :
    (p.setNonBlockAndCloseOnExec fd).fds = p.fds := by
  simp [Process.setNonBlockAndCloseOnExec]

@[simp] theorem Process.restoreErrno_fds (p : Process) (e : Errno) :
    (p.restoreErrno e).fds = p.fds := by
  unfold Process.restoreErrno
  split
  all_goals rfl

@[simp] theorem Process.afterAccept_fds (p : Process) (connfd : Int) :
    (p.afterAccept connfd).fds = p.fds := by
  unfold Process.afterAccept
  split
  · simp
  · rfl

/-- A closed descriptor is not in the table, and no other one is touched. -/
theorem Process.close_fds (p : Process) (fd : Int) :
    (p.close fd).fds = Function.update p.fds fd none := by
  unfold Process.close
  split
  · rename_i hnone
    rw [← hnone, Function.update_eq_self]
    rfl
  · rfl

theorem Process.socketsAccept_ok (p : Process) (fd : Int) :
    (p.socketsAccept (.ok fd)).2.fds = Function.update p.fds fd (some (.connection false)) := by
  simp only [Process.socketsAccept, Process.afterAccept_fds,
    Process.setNonBlockAndCloseOnExec_fds]
  rfl

theorem Process.socketsAccept_error (p : Process) (e : Errno) :
    (p.socketsAccept (.error e)).2.fds = p.fds := by
  simp only [Process.socketsAccept, Process.afterAccept_fds,
    Process.setNonBlockAndCloseOnExec_fds]
  rfl

theorem socketsAccept_error_neg (p : Process) (e : Errno) :
    ¬ (p.socketsAccept (.error e)).1 ≥ 0 := by
  show ¬ (-1 : Int) ≥ 0
  decide

/-- The reserve is open whenever it could be made, and no connection is held back. -/
structure Descriptors (s : Acceptor) : Prop where
  valid : ∀ fd < 0, s.process.fds fd = none
  idle : s.reopened = true → s.process.fds s.idleFd = some .null
  passed : ∀ fd, s.process.fds fd ≠ some (.connection false)

/-- Putting something else at a descriptor that is not the reserve. -/
theorem Descriptors.update (h : Descriptors s) {t : Acceptor} {fd : Int} {file : Option File}
    (hfds : t.process.fds = Function.update s.process.fds fd file) (hidle : t.idleFd = s.idleFd)
    (hreopened : t.reopened = s.reopened) (hvalid : fd < 0 → file = none)
    (hne : s.reopened = true → s.idleFd ≠ fd) (hpassed : file ≠ some (.connection false)) :
    Descriptors t := by
  refine ⟨fun fd' hfd' => ?_, fun hr => ?_, fun fd' => ?_⟩
  · rw [hfds]
    by_cases heq : fd' = fd
    · rw [heq, Function.update_self]
      exact hvalid (heq ▸ hfd')
    · rw [Function.update_of_ne heq, h.valid fd' hfd']
  · rw [hreopened] at hr
    rw [hfds, hidle, Function.update_of_ne (hne hr), h.idle hr]
  · rw [hfds]
    by_cases heq : fd' = fd
    · rw [heq, Function.update_self]
      exact hpassed
    · rw [Function.update_of_ne heq]
      exact h.passed fd'

/-- A new descriptor is not the reserve. -/
theorem Descriptors.idle_ne (h : Descriptors s) {fd : Int} (hfd : s.process.fds fd = none)
    (hr : s.reopened = true) : s.idleFd ≠ fd := by
  intro heq
  have hidle := h.idle hr
  rw [heq, hfd] at hidle
  exact absurd hidle (by simp)

/-- A connection is passed on or closed. -/
theorem handleNew_descriptors (h : Descriptors s) {fd : Int} (hfresh : s.process.Fresh (.ok fd)) :
    Descriptors ((s.accept (.ok fd)).handleNew fd) := by
  obtain ⟨hnonneg, hfd⟩ := hfresh
  have hfds := s.process.socketsAccept_ok fd
  have hpass : ((s.accept (.ok fd)).process.install fd (.connection true)).fds =
      Function.update s.process.fds fd (some (.connection true)) := by
    show Function.update (s.process.socketsAccept (.ok fd)).2.fds fd _ = _
    rw [hfds, Function.update_idem]
  have hclose : ((s.accept (.ok fd)).process.close fd).fds =
      Function.update s.process.fds fd none := by
    show ((s.process.socketsAccept (.ok fd)).2.close fd).fds = _
    rw [Process.close_fds, hfds, Function.update_idem]
  unfold Acceptor.handleNew
  split
  · exact h.update hpass rfl rfl (fun hneg => absurd hneg (by omega)) (h.idle_ne hfd) (by simp)
  · exact h.update hclose rfl rfl (fun _ => rfl) (h.idle_ne hfd) (by simp)

/-- Before the reserve is made again, the table has lost the reserve and gained
nothing. -/
theorem closeIdle_acceptIdle (s : Acceptor) (result : FdResult) (fd : Int) :
    ((s.closeIdle.acceptIdle result).closeIdle.process.fds fd = none) ∨
      (s.closeIdle.acceptIdle result).closeIdle.process.fds fd = s.process.fds fd := by
  have hclose : ∀ (t : Acceptor) (fd : Int),
      t.closeIdle.process.fds fd = none ∨ t.closeIdle.process.fds fd = t.process.fds fd := by
    intro t fd
    rw [Acceptor.closeIdle, Process.close_fds]
    by_cases heq : fd = t.idleFd
    · rw [heq, Function.update_self]
      exact .inl rfl
    · exact .inr (Function.update_of_ne heq _ _)
  cases result with
  | error e =>
      rcases hclose (s.closeIdle.acceptIdle (.error e)) fd with hfd | hfd
      · exact .inl hfd
      · rw [hfd]
        exact hclose s fd
  | ok new =>
      by_cases heq : fd = new
      · refine .inl ?_
        rw [heq, Acceptor.closeIdle, Process.close_fds]
        exact Function.update_self _ _ _
      · have hsame : (s.closeIdle.acceptIdle (.ok new)).process.fds fd =
            s.closeIdle.process.fds fd := Function.update_of_ne heq _ _
        rcases hclose (s.closeIdle.acceptIdle (.ok new)) fd with hfd | hfd
        · exact .inl hfd
        · rw [hfd, hsame]
          exact hclose s fd

/-- The branch for `EMFILE` makes the reserve again if it can, and keeps nothing of what
it has accepted. -/
theorem shed_descriptors (h : Descriptors s)
    (hreopen : (s.closeIdle.acceptIdle r.shed).closeIdle.process.Fresh r.reopen) :
    Descriptors (s.shed r) := by
  have hlost := closeIdle_acceptIdle s r.shed
  have hvalid : ∀ fd < 0, (s.closeIdle.acceptIdle r.shed).closeIdle.process.fds fd = none := by
    intro fd hfd
    rcases hlost fd with hfd' | hfd'
    · exact hfd'
    · rw [hfd', h.valid fd hfd]
  have hpassed : ∀ fd, (s.closeIdle.acceptIdle r.shed).closeIdle.process.fds fd ≠
      some (.connection false) := by
    intro fd hfd
    rcases hlost fd with hfd' | hfd'
    · exact absurd (hfd'.symm.trans hfd) (by simp)
    · exact h.passed fd (hfd'.symm.trans hfd)
  unfold Acceptor.shed
  cases hr : r.reopen with
  | error e => exact ⟨hvalid, fun hfalse => absurd hfalse (by simp [Acceptor.openIdle, Acceptor.failure?]), hpassed⟩
  | ok new =>
      rw [hr] at hreopen
      refine ⟨fun fd hfd => ?_, fun _ => Function.update_self _ _ _, fun fd hfd => ?_⟩
      · have hne : fd ≠ new := by
          have := hreopen.1
          omega
        exact (Function.update_of_ne hne _ _).trans (hvalid fd hfd)
      · by_cases heq : fd = new
        · subst heq
          exact absurd ((Function.update_self _ _ _).symm.trans hfd) (by simp)
        · exact hpassed fd ((Function.update_of_ne heq _ _).symm.trans hfd)

/-- Whatever the calls return. -/
theorem handleRead_descriptors (h : Descriptors s) (hfresh : s.Fresh r) :
    Descriptors (s.handleRead r) := by
  obtain ⟨haccept, -, hreopen⟩ := hfresh
  unfold Acceptor.handleRead
  cases hr : r.accept with
  | ok fd =>
      rw [hr] at haccept
      rw [if_pos (show (s.process.socketsAccept (.ok fd)).1 ≥ 0 from haccept.1)]
      exact handleNew_descriptors h haccept
  | error e =>
      rw [hr] at hreopen
      have hfds := s.process.socketsAccept_error e
      have hsame : Descriptors (s.accept (.error e)) :=
        ⟨fun fd hfd => by rw [← h.valid fd hfd, Acceptor.accept, hfds],
          fun hidle => by rw [← h.idle hidle, Acceptor.accept, hfds],
          fun fd => by
            rw [Acceptor.accept, hfds]
            exact h.passed fd⟩
      rw [if_neg (socketsAccept_error_neg s.process e)]
      unfold Acceptor.handleFailure
      split
      · exact shed_descriptors ⟨hsame.valid, hsame.idle, hsame.passed⟩ hreopen
      · exact ⟨hsame.valid, hsame.idle, hsame.passed⟩

end Descriptors

/-! ## Error numbers -/

section Errnos

variable {s : Acceptor} {r : ReadResults}

theorem Process.restoreErrno_errno (p : Process) : (p.restoreErrno p.errno).errno = p.errno := by
  unfold Process.restoreErrno
  split
  all_goals rfl

/-- `sockets::accept` loses the error number to the calls of `fcntl` on `-1`. -/
theorem socketsAccept_errno {p : Process} (hvalid : ∀ fd < 0, p.fds fd = none) (e : Errno) :
    (p.socketsAccept (.error e)).2.errno = .EBADF := by
  have hfcntl : ∀ q : Process, q.fds = p.fds → q.fcntl (-1) = q.setErrno .EBADF := by
    intro q hq
    rw [Process.fcntl, if_pos (by rw [hq]; exact hvalid (-1) (by decide))]
  have hfirst : (p.setErrno e).fcntl (-1) = p.setErrno .EBADF := hfcntl (p.setErrno e) rfl
  have hagain : (p.setErrno .EBADF).fcntl (-1) = p.setErrno .EBADF :=
    hfcntl (p.setErrno .EBADF) rfl
  have hset : (p.setErrno e).setNonBlockAndCloseOnExec (-1) = p.setErrno .EBADF := by
    rw [Process.setNonBlockAndCloseOnExec, hfirst, hagain, hagain, hagain]
  show (((p.setErrno e).setNonBlockAndCloseOnExec (-1)).afterAccept (-1)).errno = _
  rw [hset, Process.afterAccept, if_pos (by decide), Process.restoreErrno_errno]
  rfl

/-- When `accept` fails, `handleRead` tests `EBADF`, and the branch for `EMFILE` is not
taken. -/
theorem handleRead_error (h : Descriptors s) {e : Errno} (he : r.accept = .error e) :
    s.handleRead r = { s.accept (.error e) with testedErrno := some .EBADF } := by
  have herrno : (s.accept (.error e)).process.errno = .EBADF := socketsAccept_errno h.valid e
  unfold Acceptor.handleRead
  rw [he, if_neg (socketsAccept_error_neg s.process e), Acceptor.handleFailure, herrno,
    if_neg (by decide)]

/-- When it succeeds, no error number is tested. -/
theorem handleRead_ok {fd : Int} (hfd : r.accept = .ok fd) (hnonneg : 0 ≤ fd) :
    s.handleRead r = (s.accept (.ok fd)).handleNew fd := by
  unfold Acceptor.handleRead
  rw [hfd, if_pos (show (s.process.socketsAccept (.ok fd)).1 ≥ 0 from hnonneg)]
  rfl

end Errnos

/-- `handleRead` tests the error number of `accept`, has taken the branch for `EMFILE`
each time `accept` failed with it, has the reserve open if it could be made, and holds no
connection back. -/
structure Shedding (s : Acceptor) : Prop where
  errno : s.testedErrno = s.kernelErrno
  sheds : s.sheds = s.exhausted
  idle : s.reopened = true → s.process.fds s.idleFd = some .null
  passed : ∀ fd, s.process.fds fd ≠ some (.connection false)

/-- `accept` fails with `EBADF` only. -/
def FailsWithEBADF (_ : Acceptor) : AcceptorAct → Prop
  | .handleRead r => ∀ e ∈ Acceptor.failure? r.accept, e = .EBADF
  | _ => True

instance (s : Acceptor) : ∀ a, Decidable (FailsWithEBADF s a)
  | .handleRead r => inferInstanceAs (Decidable (∀ e ∈ Acceptor.failure? r.accept, e = .EBADF))
  | .setNewConnectionCallback | .openFd _ | .closeFd _ => inferInstanceAs (Decidable True)

theorem new_fds (idleFd : Nat) (fd : Int) : (Acceptor.new idleFd).process.fds fd =
    Function.update (fun _ => none) (idleFd : Int) (some File.null) fd := rfl

theorem new_descriptors (idleFd : Nat) : Descriptors (Acceptor.new idleFd) := by
  refine ⟨fun fd hfd => ?_, fun _ => ?_, fun fd => ?_⟩
  · rw [new_fds, Function.update_of_ne (by omega)]
  · rw [new_fds, show (Acceptor.new idleFd).idleFd = idleFd from rfl, Function.update_self]
  · rw [new_fds]
    by_cases heq : fd = idleFd
    · rw [heq, Function.update_self]
      simp
    · rw [Function.update_of_ne heq]
      simp

theorem new_shedding (idleFd : Nat) : Shedding (Acceptor.new idleFd) :=
  ⟨rfl, rfl, (new_descriptors idleFd).idle, (new_descriptors idleFd).passed⟩

theorem exec_descriptors {s : Acceptor} (h : Descriptors s) {a : AcceptorAct}
    (hen : s.Enabled a) : Post (s.exec a) Descriptors := by
  cases a with
  | handleRead r => exact .ok (handleRead_descriptors h hen)
  | setNewConnectionCallback => exact .ok ⟨h.valid, h.idle, h.passed⟩
  | openFd fd =>
      have hopen : (s.process.install fd .other).fds =
          Function.update s.process.fds fd (some .other) := rfl
      have hnonneg : 0 ≤ fd := hen.1
      exact .ok (h.update hopen rfl rfl (fun hneg => absurd hneg (by omega)) (h.idle_ne hen.2)
        (by simp))
  | closeFd fd =>
      exact .ok (h.update (s.process.close_fds fd) rfl rfl (fun _ => rfl) (fun _ => hen.1.symm)
        (by simp))

/-- A step keeps the property unless it is a `handleRead` whose `accept` fails with
another number. -/
theorem exec_shedding {s : Acceptor} (hd : Descriptors s) (h : Shedding s) {a : AcceptorAct}
    (hen : s.Enabled a) : Post (s.exec a) fun s' => (Shedding s' ↔ FailsWithEBADF s a) := by
  have hd' := exec_descriptors hd hen
  have hkeeps : ∀ {s' : Acceptor}, s.exec a = .ok s' → s'.testedErrno = s'.kernelErrno →
      s'.sheds = s'.exhausted → Shedding s' := by
    intro s' hs' herrno hsheds
    exact ⟨herrno, hsheds, (hd' s' hs').idle, (hd' s' hs').passed⟩
  cases a with
  | handleRead r =>
      intro s' hs'
      have heq : s.handleRead r = s' := Except.ok.inj hs'
      cases hr : r.accept with
      | ok fd =>
          have hfresh := hen.1
          rw [hr] at hfresh
          rw [handleRead_ok hr hfresh.1] at heq
          refine iff_of_true ?_ fun e he => ?_
          · refine hkeeps hs' ?_ ?_
            · rw [← heq, Acceptor.handleNew]
              split
              · rfl
              · rfl
            · rw [← heq, Acceptor.handleNew]
              split
              · exact h.sheds
              · exact h.sheds
          · rw [hr] at he
            exact absurd he (by simp [Acceptor.failure?])
      | error e =>
          rw [handleRead_error hd hr] at heq
          constructor
          · intro h' e' he'
            rw [hr] at he'
            obtain rfl := Option.some.inj he'
            have herrno := h'.errno
            rw [← heq] at herrno
            exact (Option.some.inj herrno).symm
          · intro hbad
            obtain rfl : e = .EBADF := hbad e (by rw [hr]; rfl)
            refine hkeeps hs' (by rw [← heq]; rfl) ?_
            rw [← heq]
            exact h.sheds
  | setNewConnectionCallback | openFd fd | closeFd fd =>
      intro s' hs'
      refine iff_of_true (hkeeps hs' ?_ ?_) trivial
      · obtain rfl := Except.ok.inj hs'
        exact h.errno
      · obtain rfl := Except.ok.inj hs'
        exact h.sheds

/-- **The branch for `EMFILE`.** Along a run, `handleRead` sees the error numbers of
`accept`, at any point, if and only if `accept` never fails with another one than
`EBADF`. -/
theorem shedding_iff (idleFd : Nat) (acts : List AcceptorAct)
    (hlegal : acceptorSys.Legal (.new idleFd) acts) :
    (∀ pre, pre <+: acts → Post (acceptorSys.runFrom (.new idleFd) pre) Shedding) ↔
      acceptorSys.Meets FailsWithEBADF (.new idleFd) acts := by
  refine Sys.always_iff_meets_of_invariant (S := acceptorSys) (I := Descriptors) ?_ ?_ ?_
    (new_descriptors idleFd) (new_shedding idleFd) hlegal
  · intro s a hd hen
    exact exec_descriptors hd hen
  · intro s a hd h hen
    exact exec_shedding hd h hen
  · intro s a e
    exact e.elim

/-- Two connections, one before the callback is set, and a failure. -/
theorem shedding_iff_three :
    Post (acceptorSys.runFrom (.new 3)
      [.handleRead ⟨.ok 4, .error .EINTR, .error .EINTR⟩, .setNewConnectionCallback,
        .handleRead ⟨.ok 4, .error .EINTR, .error .EINTR⟩, .closeFd 4,
        .handleRead ⟨.error .EBADF, .error .EINTR, .error .EINTR⟩]) Shedding :=
  (shedding_iff 3 _ (by decide)).mpr (by decide) _ List.prefix_rfl

/-- The descriptors have run out: giving up the reserve would free one. -/
def outOfDescriptors : AcceptorAct := .handleRead ⟨.error .EMFILE, .ok 3, .ok 3⟩

/-- `handleRead` tests `EBADF`, and the connection stays pending. -/
theorem outOfDescriptors_not_shed :
    acceptorSys.Legal (.new 3) [outOfDescriptors] ∧
      (Lands (acceptorSys.runFrom (.new 3) [outOfDescriptors]) fun s =>
        s.kernelErrno = some .EMFILE ∧ s.testedErrno = some .EBADF ∧ s.exhausted = 1 ∧
          s.sheds = 0) ∧
      ¬ Post (acceptorSys.runFrom (.new 3) [outOfDescriptors]) Shedding := by
  refine ⟨by decide, by decide, fun h => ?_⟩
  have herrno := (h _ rfl).errno
  exact absurd herrno (by decide)

end Net

end Muduo
