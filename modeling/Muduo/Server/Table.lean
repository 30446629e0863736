import Muduo.Server.Model

/-!
# The connection table

The life of a connection is spread over two queues: `connectEstablished` and
`connectDestroyed` go to its own loop, `removeConnectionInLoop` to that of the
server. `Stage` is that life as one sequence; a stage says which functors of the
connection are queued and where. `Rep σ w` relates a world to the stages of its
connections, and says that the table holds exactly those that have not been removed.
Between two steps every connection is at a stage that is `stable`; a step moves one
connection along.
-/

namespace Muduo.Server

open Lib

/-! ## The functors of one connection -/

/-- The tasks for connection `i` in a queue. -/
def tasks (q : List Functor) (i : Nat) : List Task :=
  q.filterMap fun f => if f.conn = i then some f.task else none

section Tasks

variable {i j : Nat}

@[simp] theorem tasks_nil (i : Nat) : tasks [] i = [] := rfl

theorem tasks_append (q r : List Functor) (i : Nat) : tasks (q ++ r) i = tasks q i ++ tasks r i :=
  List.filterMap_append

theorem tasks_cons_self (t : Task) (i : Nat) (q : List Functor) :
    tasks (⟨t, i⟩ :: q) i = t :: tasks q i := by
  simp [tasks]

theorem tasks_cons_ne (t : Task) (h : i ≠ j) (q : List Functor) :
    tasks (⟨t, i⟩ :: q) j = tasks q j := by
  simp [tasks, h]

theorem tasks_concat_self (q : List Functor) (t : Task) (i : Nat) :
    tasks (q ++ [⟨t, i⟩]) i = tasks q i ++ [t] := by
  rw [tasks_append, tasks_cons_self, tasks_nil]

theorem tasks_concat_ne (q : List Functor) (t : Task) (h : i ≠ j) :
    tasks (q ++ [⟨t, i⟩]) j = tasks q j := by
  rw [tasks_append, tasks_cons_ne t h, tasks_nil, List.append_nil]

theorem count_tasks (q : List Functor) (t : Task) (i : Nat) :
    (tasks q i).count t = q.count ⟨t, i⟩ := by
  induction q with
  | nil => rfl
  | cons f q ih =>
      obtain ⟨u, j⟩ := f
      by_cases hj : j = i
      · subst hj
        rw [tasks_cons_self, List.count_cons, List.count_cons, ih]
        simp
      · rw [tasks_cons_ne u hj, List.count_cons, ih]
        simp [hj]

end Tasks

/-! ## Stages -/

/-- The life of a connection. -/
inductive Stage
  /-- In the table, and nothing given to its loop yet. -/
  | created
  /-- `connectEstablished` is queued; it is about to run. -/
  | waiting | starting
  | up
  /-- The close callback was invoked; `removeConnectionInLoop` is about to run; it is
  queued. -/
  | removing | closing
  /-- `connectDestroyed` is queued; it is about to run; it has run. -/
  | removed | destroying | done
  deriving DecidableEq, Repr

namespace Stage

/-- What is queued on the loop `l`, for a connection of the loop `own`. -/
def queued (base own l : Loop) : Stage → List Task
  | .waiting => if l = own then [.connectEstablished] else []
  | .closing => if l = base then [.removeConnectionInLoop] else []
  | .removed => if l = own then [.connectDestroyed] else []
  | .created | .starting | .up | .removing | .destroying | .done => []

/-- What the loop `l` has been given, apart from `removeConnectionInLoop`. -/
def given (own l : Loop) : Stage → List Task
  | .created => []
  | .waiting | .starting | .up | .removing | .closing => if l = own then [.connectEstablished] else []
  | .removed | .destroying | .done =>
      if l = own then [.connectEstablished, .connectDestroyed] else []

def established : Stage → Bool
  | .created | .waiting | .starting => false
  | .up | .removing | .closing | .removed | .destroying | .done => true

def closed : Stage → Nat
  | .created | .waiting | .starting | .up => 0
  | .removing | .closing | .removed | .destroying | .done => 1

def isRemoved : Stage → Bool
  | .removed | .destroying | .done => true
  | .created | .waiting | .starting | .up | .removing | .closing => false

def isDestroyed : Stage → Bool
  | .done => true
  | .created | .waiting | .starting | .up | .removing | .closing | .removed | .destroying => false

/-- The stages between two steps. -/
def stable : Stage → Bool
  | .waiting | .up | .closing | .removed | .done => true
  | .created | .starting | .removing | .destroying => false

/-- The two stages differ in the queues only. -/
structure Alike (st st' : Stage) : Prop where
  established : st.established = st'.established
  closed : st.closed = st'.closed
  isRemoved : st.isRemoved = st'.isRemoved
  isDestroyed : st.isDestroyed = st'.isDestroyed

end Stage

/-- Nothing has happened to the connection since it was made. -/
def Untouched (c : Connection.Conn) : Prop :=
  ∃ sockfd writeComplete, c = .new sockfd writeComplete false kHighWaterMark

/-- Connection `i` of the world is at a stage. -/
structure AtStage (w : World) (i : Nat) (p : Peer) (st : Stage) : Prop where
  queued : ∀ l, tasks (w.queue l) i = st.queued w.server.loop p.loop l
  given : ∀ l, (tasks (w.given l) i).filter (· ≠ .removeConnectionInLoop) = st.given p.loop l
  untouched : st.established = false → Untouched p.conn
  established : p.established = st.established
  closed : p.closed = st.closed
  removed : p.removed = st.isRemoved
  destroyed : p.destroyed = st.isDestroyed

/-- The world represents the stages `σ`. -/
structure Rep (σ : Nat → Stage) (w : World) : Prop where
  alive : w.phase = .alive
  ipPort : w.server.ipPort.length ≤ 51
  small : w.peers.length < 2 ^ 31
  nextConnId : w.server.nextConnId = Int.bmod (w.peers.length + 1) (2 ^ 32)
  names : ∀ (i : Nat) p, w.peers[i]? = some p → p.name = w.server.connName (i + 1)
  table : ∀ n i, w.server.connections[n]? = some i ↔
    ∃ p, w.peers[i]? = some p ∧ p.name = n ∧ (σ i).isRemoved = false
  stage : ∀ i p, w.peers[i]? = some p → AtStage w i p (σ i)
  /-- No functor is for a connection that is still to come. -/
  later : ∀ i l, w.peers.length ≤ i → tasks (w.queue l) i = [] ∧ tasks (w.given l) i = []

theorem Rep.not_destroyed {σ : Nat → Stage} {w : World} (h : Rep σ w) : w.phase ≠ .destroyed := by
  rw [h.alive]
  simp

/-! ## Names -/

section Names

variable {s : TcpServer}

/-- The numbers of the first 2^31 connections have at most ten digits, so the buffer
holds the whole text. -/
theorem connName_whole (hip : s.ipPort.length ≤ 51) {n : Nat} (hn : n < 2 ^ 31) :
    s.connName n = s.name ++ ('-' :: s.ipPort ++ '#' :: decimal n) := by
  have hdigits : (decimal n).length ≤ 10 := length_decimal_le (by decide) (by omega)
  rw [TcpServer.connName, snprintf_of_fits]
  simp only [List.length_append, List.length_cons]
  omega

theorem connName_inj (hip : s.ipPort.length ≤ 51) {m n : Nat} (hm : m < 2 ^ 31) (hn : n < 2 ^ 31)
    (h : s.connName m = s.connName n) : m = n := by
  rw [connName_whole hip hm, connName_whole hip hn] at h
  have htext := List.append_cancel_left h
  have hid := List.append_cancel_left htext
  exact Int.ofNat.inj (decimal_injective (List.cons.inj hid).2)

end Names

/-! ## One connection moves -/

section Move

variable {σ : Nat → Stage} {w w' : World} {i j : Nat} {p p' q : Peer} {st st' : Stage}

theorem set_cases {ps : List Peer} (h : (ps.set i p')[j]? = some q) :
    (i = j ∧ q = p') ∨ (i ≠ j ∧ ps[j]? = some q) := by
  rw [List.getElem?_set] at h
  split at h
  · rename_i hij
    split at h
    · exact .inl ⟨hij, (Option.some.inj h).symm⟩
    · exact absurd h (by simp)
  · rename_i hij
    exact .inr ⟨hij, h⟩

theorem set_self {ps : List Peer} (h : ps[i]? = some p) (p' : Peer) :
    (ps.set i p')[i]? = some p' := by
  obtain ⟨hi, -⟩ := List.getElem?_eq_some_iff.mp h
  exact List.getElem?_set_self hi

/-- A step of another connection. -/
theorem AtStage.frame (h : AtStage w j q st) (hloop : w'.server.loop = w.server.loop)
    (hqueue : ∀ l, tasks (w'.queue l) j = tasks (w.queue l) j)
    (hgiven : ∀ l, tasks (w'.given l) j = tasks (w.given l) j) : AtStage w' j q st := by
  refine ⟨fun l => ?_, fun l => ?_, h.untouched, h.established, h.closed, h.removed, h.destroyed⟩
  · rw [hqueue l, hloop]
    exact h.queued l
  · rw [hgiven l]
    exact h.given l

/-- A step that queues or takes a functor of the connection. -/
theorem AtStage.relabel (h : AtStage w i p st) (halike : st'.Alike st)
    (hqueued : ∀ l, tasks (w'.queue l) i = st'.queued w'.server.loop p.loop l)
    (hgiven : ∀ l, (tasks (w'.given l) i).filter (· ≠ .removeConnectionInLoop) = st'.given p.loop l) :
    AtStage w' i p st' := by
  refine ⟨hqueued, hgiven, ?_, ?_, ?_, ?_, ?_⟩
  · rw [halike.established]
    exact h.untouched
  · rw [halike.established]
    exact h.established
  · rw [halike.closed]
    exact h.closed
  · rw [halike.isRemoved]
    exact h.removed
  · rw [halike.isDestroyed]
    exact h.destroyed

/-- Connection `i` moves to the stage `st`, and no other does. -/
theorem Rep.move (h : Rep σ w) (hp : w.peers[i]? = some p) {t : Std.TreeMap (List Char) Nat}
    (hserver : w'.server = { w.server with connections := t }) (hphase : w'.phase = w.phase)
    (hpeers : w'.peers = w.peers.set i p') (hname : p'.name = p.name)
    (hqueue : ∀ l j, i ≠ j → tasks (w'.queue l) j = tasks (w.queue l) j)
    (hgiven : ∀ l j, i ≠ j → tasks (w'.given l) j = tasks (w.given l) j)
    (htable : ∀ n j, t[n]? = some j ↔
      ∃ q, w.peers[j]? = some q ∧ q.name = n ∧ (Function.update σ i st j).isRemoved = false)
    (hstage : AtStage w' i p' st) : Rep (Function.update σ i st) w' := by
  have hlength : w'.peers.length = w.peers.length := by
    rw [hpeers, List.length_set]
  have hloop : w'.server.loop = w.server.loop := by
    rw [hserver]
  refine ⟨hphase.trans h.alive, ?_, ?_, ?_, fun j q hq => ?_, fun n j => ?_, fun j q hq => ?_,
    fun j l hj => ?_⟩
  · rw [hserver]
    exact h.ipPort
  · rw [hlength]
    exact h.small
  · rw [hserver, hlength]
    exact h.nextConnId
  · rw [hserver]
    rw [hpeers] at hq
    rcases set_cases hq with ⟨rfl, rfl⟩ | ⟨-, hold⟩
    · rw [hname]
      exact h.names i p hp
    · exact h.names j q hold
  · rw [hserver, hpeers]
    refine (htable n j).trans ⟨?_, ?_⟩
    · rintro ⟨q, hq, hn, hr⟩
      by_cases hij : i = j
      · subst hij
        obtain rfl := Option.some.inj (hp.symm.trans hq)
        exact ⟨p', set_self hp p', hname.trans hn, hr⟩
      · exact ⟨q, by rw [List.getElem?_set_ne hij]; exact hq, hn, hr⟩
    · rintro ⟨q, hq, hn, hr⟩
      rcases set_cases hq with ⟨rfl, rfl⟩ | ⟨-, hold⟩
      · exact ⟨p, hp, hname.symm.trans hn, hr⟩
      · exact ⟨q, hold, hn, hr⟩
  · rw [hpeers] at hq
    rcases set_cases hq with ⟨rfl, rfl⟩ | ⟨hij, hold⟩
    · rw [Function.update_self]
      exact hstage
    · rw [Function.update_of_ne (Ne.symm hij)]
      exact (h.stage j q hold).frame hloop (fun l => hqueue l j hij) fun l => hgiven l j hij
  · rw [hlength] at hj
    have hij : i ≠ j := by
      obtain ⟨hi, -⟩ := List.getElem?_eq_some_iff.mp hp
      omega
    rw [hqueue l j hij, hgiven l j hij]
    exact h.later j l hj

/-- A move that leaves the table alone. -/
theorem Rep.move_in_table (h : Rep σ w) (hp : w.peers[i]? = some p) (hserver : w'.server = w.server)
    (hphase : w'.phase = w.phase) (hpeers : w'.peers = w.peers.set i p') (hname : p'.name = p.name)
    (hqueue : ∀ l j, i ≠ j → tasks (w'.queue l) j = tasks (w.queue l) j)
    (hgiven : ∀ l j, i ≠ j → tasks (w'.given l) j = tasks (w.given l) j)
    (hremoved : st.isRemoved = (σ i).isRemoved)
    (hstage : AtStage w' i p' st) : Rep (Function.update σ i st) w' := by
  refine h.move hp hserver hphase hpeers hname hqueue hgiven (fun n j => ?_) hstage
  have hsame : (Function.update σ i st j).isRemoved = (σ j).isRemoved := by
    by_cases hij : j = i
    · subst hij
      rw [Function.update_self]
      exact hremoved
    · rw [Function.update_of_ne hij]
  rw [hsame]
  exact h.table n j

theorem tasks_update_self (f : Loop → List Functor) (l : Loop) (t : Task) (i : Nat) (l' : Loop) :
    tasks (Function.update f l (f l ++ [⟨t, i⟩]) l') i =
      tasks (f l') i ++ if l' = l then [t] else [] := by
  by_cases hl : l' = l
  · subst hl
    rw [Function.update_self, tasks_concat_self, if_pos rfl]
  · rw [Function.update_of_ne hl, if_neg hl, List.append_nil]

theorem tasks_update_ne (f : Loop → List Functor) (l : Loop) (t : Task) (hij : i ≠ j) (l' : Loop) :
    tasks (Function.update f l (f l ++ [⟨t, i⟩]) l') j = tasks (f l') j := by
  by_cases hl : l' = l
  · subst hl
    rw [Function.update_self, tasks_concat_ne _ t hij]
  · rw [Function.update_of_ne hl]

theorem set_same {ps : List Peer} (h : ps[i]? = some p) : ps.set i p = ps := by
  obtain ⟨hi, hget⟩ := List.getElem?_eq_some_iff.mp h
  rw [← hget]
  exact List.set_getElem_self hi

/-- A loop is given a functor of the connection. -/
theorem Rep.give (h : Rep σ w) (hp : w.peers[i]? = some p) (st : Stage) (l₀ : Loop) (t : Task)
    (hqueued : ∀ l, st.queued w.server.loop p.loop l = (σ i).queued w.server.loop p.loop l)
    (hgiven : ∀ l, st.given p.loop l =
      (σ i).given p.loop l ++ if l = l₀ ∧ t ≠ .removeConnectionInLoop then [t] else [])
    (halike : st.Alike (σ i)) : Rep (Function.update σ i st) (w.give l₀ ⟨t, i⟩) := by
  have hs := h.stage i p hp
  refine h.move_in_table hp rfl rfl (set_same hp).symm rfl (fun _ _ _ => rfl)
    (fun l j hij => tasks_update_ne _ _ _ hij l) halike.isRemoved
    (hs.relabel halike (fun l => ?_) fun l => ?_)
  · exact (hs.queued l).trans (hqueued l).symm
  · show (tasks (Function.update w.given l₀ (w.given l₀ ++ [⟨t, i⟩]) l) i).filter _ = _
    rw [tasks_update_self, List.filter_append, hs.given l, hgiven l]
    congr 1
    by_cases hl : l = l₀
    · by_cases ht : t = .removeConnectionInLoop
      · simp [hl, ht]
      · simp [hl, ht]
    · simp [hl]

/-- A functor of the connection is queued. -/
theorem Rep.push (h : Rep σ w) (hp : w.peers[i]? = some p) (st : Stage) (l₀ : Loop) (t : Task)
    (hqueued : ∀ l, st.queued w.server.loop p.loop l =
      (σ i).queued w.server.loop p.loop l ++ if l = l₀ then [t] else [])
    (hgiven : ∀ l, st.given p.loop l = (σ i).given p.loop l)
    (halike : st.Alike (σ i)) : Rep (Function.update σ i st) (w.push l₀ ⟨t, i⟩) := by
  have hs := h.stage i p hp
  refine h.move_in_table hp rfl rfl (set_same hp).symm rfl
    (fun l j hij => tasks_update_ne _ _ _ hij l) (fun _ _ _ => rfl) halike.isRemoved
    (hs.relabel halike (fun l => ?_) fun l => ?_)
  · show tasks (Function.update w.queue l₀ (w.queue l₀ ++ [⟨t, i⟩]) l) i = _
    rw [tasks_update_self, hs.queued l]
    exact (hqueued l).symm
  · exact (hs.given l).trans (hgiven l).symm

/-! ## Queues -/

/-- The stage of a connection whose functor has been taken out of the queue. -/
def Task.taken : Task → Stage
  | .connectEstablished => .starting
  | .removeConnectionInLoop => .removing
  | .connectDestroyed => .destroying

/-- The stage of a connection whose functor is queued. -/
def Task.waiting : Task → Stage
  | .connectEstablished => .waiting
  | .removeConnectionInLoop => .closing
  | .connectDestroyed => .removed

theorem queued_eq_cons {base own l : Loop} {t : Task} {ts : List Task}
    (h : st.queued base own l = t :: ts) :
    st = t.waiting ∧ ts = [] ∧ ∀ l', l' ≠ l → st.queued base own l' = [] := by
  cases st with
  | waiting | closing | removed =>
      simp only [Stage.queued] at h ⊢
      split at h
      · rename_i hl
        obtain ⟨rfl, rfl⟩ := List.cons.inj h
        refine ⟨rfl, rfl, fun l' hl' => if_neg ?_⟩
        rw [← hl]
        exact hl'
      · exact absurd h (by simp)
  | created | starting | up | removing | destroying | done =>
      exact absurd h (by simp [Stage.queued])

/-- The oldest functor of a queue is taken out. -/
theorem Rep.take (h : Rep σ w) {l : Loop} {t : Task} {rest : List Functor}
    (hqueue : w.queue l = ⟨t, i⟩ :: rest) :
    ∃ p, w.peers[i]? = some p ∧
      Rep (Function.update σ i t.taken) { w with queue := Function.update w.queue l rest } := by
  have hi : i < w.peers.length := by
    by_contra hi
    have hnone := (h.later i l (by omega)).1
    rw [hqueue, tasks_cons_self] at hnone
    exact absurd hnone (by simp)
  obtain ⟨p, hp⟩ : ∃ p, w.peers[i]? = some p := ⟨_, List.getElem?_eq_getElem hi⟩
  have hs := h.stage i p hp
  have hcons := hs.queued l
  rw [hqueue, tasks_cons_self] at hcons
  obtain ⟨hstage, hrest, hothers⟩ := queued_eq_cons hcons.symm
  have halike : t.taken.Alike (σ i) := by
    rw [hstage]
    cases t <;> exact ⟨rfl, rfl, rfl, rfl⟩
  refine ⟨p, hp, h.move_in_table hp rfl rfl (set_same hp).symm rfl (fun l' j hij => ?_)
    (fun _ _ _ => rfl) halike.isRemoved (hs.relabel halike (fun l' => ?_) fun l' => ?_)⟩
  · show tasks (Function.update w.queue l rest l') j = _
    by_cases hl : l' = l
    · subst hl
      rw [Function.update_self, hqueue, tasks_cons_ne t hij]
    · rw [Function.update_of_ne hl]
  · have hnone : t.taken.queued w.server.loop p.loop l' = [] := by
      cases t <;> rfl
    show tasks (Function.update w.queue l rest l') i = _
    rw [hnone]
    by_cases hl : l' = l
    · subst hl
      rw [Function.update_self]
      exact hrest
    · rw [Function.update_of_ne hl, hs.queued l']
      exact hothers l' hl
  · rw [hs.given l', hstage]
    cases t <;> rfl

/-! ## What the functors do to the stages -/

/-- The stage of a connection whose functor has run. -/
def Task.ran : Task → Stage
  | .connectEstablished => .up
  | .removeConnectionInLoop => .removed
  | .connectDestroyed => .done

/-- The assertion is one of a connection's. -/
def OfConnection (e : Fault) : Prop := ∃ a, e = .connection a

/-- A call of a connection's function, and then the rest. -/
theorem ends_call {x : Except Connection.Assert Connection.Conn}
    {f : Connection.Conn → Except Fault World} {P : World → Prop} {Q : Fault → Prop}
    (hstop : ∀ a, Q (.connection a)) (h : ∀ c, x = .ok c → Ends (f c) P Q) :
    Ends (x.mapError Fault.connection >>= f) P Q :=
  (Post.ends_mapError (P := fun c => x = .ok c) (fun _ hc => hc) hstop).bind h

theorem connectEstablished_rep (h : Rep σ w) (hp : w.peers[i]? = some p) (hst : σ i = .starting) :
    Lands (w.connectEstablished i) (Rep (Function.update σ i .up)) := by
  have hs := h.stage i p hp
  rw [hst] at hs
  obtain ⟨sockfd, writeComplete, hnew⟩ := hs.untouched rfl
  -- a new connection passes `assert(M_state == kConnecting)`
  obtain ⟨c, hc⟩ : ∃ c, p.conn.connectEstablished = .ok c := by
    rw [hnew]
    exact ⟨_, rfl⟩
  simp only [World.connectEstablished, World.onPeer, hp, hc, Except.mapError, ok_bind]
  refine .ok (h.move_in_table hp rfl rfl rfl rfl (fun _ _ _ => rfl) (fun _ _ _ => rfl) ?_ ?_)
  · rw [hst]
    rfl
  · exact ⟨hs.queued, hs.given, fun hest => absurd hest (by simp [Stage.established]), rfl, hs.closed,
      hs.removed, hs.destroyed⟩

theorem connectDestroyed_rep (d : Destroy) (h : Rep σ w) (hp : w.peers[i]? = some p)
    (hst : σ i = .destroying) :
    Ends (w.connectDestroyed d i) (Rep (Function.update σ i .done)) OfConnection := by
  have hs := h.stage i p hp
  rw [hst] at hs
  simp only [World.connectDestroyed, World.onPeer, hp, bind_assoc, pure_bind]
  refine ends_call (fun a => ⟨a, rfl⟩) fun c _ => .ok (h.move_in_table hp rfl rfl rfl rfl
    (fun _ _ _ => rfl) (fun _ _ _ => rfl) ?_ ?_)
  · rw [hst]
    rfl
  · exact ⟨hs.queued, hs.given, fun hest => absurd hest (by simp [Stage.established]), hs.established,
      hs.closed, hs.removed, rfl⟩

/-- The name of a connection that has not been removed is in the table, and it is the
only one with that name. -/
theorem Rep.in_table (h : Rep σ w) (hp : w.peers[i]? = some p) (hst : (σ i).isRemoved = false) :
    w.server.connections[p.name]? = some i :=
  (h.table p.name i).mpr ⟨p, hp, rfl, hst⟩

/-- The table after the `erase`. -/
theorem Rep.erased (h : Rep σ w) (hp : w.peers[i]? = some p) (hst : (σ i).isRemoved = false)
    (hremoved : st.isRemoved = true) (n : List Char) (j : Nat) :
    (w.server.connections.erase p.name)[n]? = some j ↔
      ∃ q, w.peers[j]? = some q ∧ q.name = n ∧ (Function.update σ i st j).isRemoved = false := by
  rw [Std.TreeMap.getElem?_erase]
  simp only [Std.LawfulEqCmp.compare_eq_iff_eq]
  by_cases hij : j = i
  · subst hij
    rw [Function.update_self, hremoved]
    constructor
    · intro hsome
      split at hsome
      · exact absurd hsome (by simp)
      · rename_i hne
        obtain ⟨q, hq, hname, -⟩ := (h.table n j).mp hsome
        obtain rfl := Option.some.inj (hp.symm.trans hq)
        exact absurd hname hne
    · rintro ⟨q, -, -, hr⟩
      exact absurd hr (by simp)
  · rw [Function.update_of_ne hij, ← h.table n j]
    split
    · -- the name that is erased is that of `i`
      rename_i hname
      subst hname
      rw [h.in_table hp hst]
      simp [Ne.symm hij]
    · rfl

/-- The assertion holds: `erase` finds the connection. -/
theorem removeConnectionInLoop_rep (h : Rep σ w) (hp : w.peers[i]? = some p)
    (hst : σ i = .removing) :
    Lands (w.removeConnectionInLoop i) (Rep (Function.update σ i .removed)) := by
  have hs := h.stage i p hp
  rw [hst] at hs
  have hfound : w.server.connections[p.name]? = some i := h.in_table hp (by rw [hst]; rfl)
  have hmem : p.name ∈ w.server.connections := by
    rw [Std.TreeMap.mem_iff_isSome_getElem?, hfound]
    rfl
  simp only [World.removeConnectionInLoop, hp]
  refine .check_bind h.not_destroyed (.check_bind (if_pos hmem) (.ok ?_))
  refine h.move hp rfl rfl rfl rfl
    (fun l j hij => tasks_update_ne _ _ _ hij l) (fun l j hij => tasks_update_ne _ _ _ hij l)
    (h.erased hp (by rw [hst]; rfl) rfl) ⟨fun l => ?_, fun l => ?_,
      fun hest => absurd hest (by simp [Stage.established]), hs.established, hs.closed, rfl,
      hs.destroyed⟩
  · show tasks (Function.update w.queue p.loop (w.queue p.loop ++ [⟨.connectDestroyed, i⟩]) l) i = _
    rw [tasks_update_self, hs.queued l]
    rfl
  · show (tasks (Function.update w.given p.loop
      (w.given p.loop ++ [⟨.connectDestroyed, i⟩]) l) i).filter _ = _
    rw [tasks_update_self, List.filter_append, hs.given l]
    by_cases hl : l = p.loop
    · simp [hl, Stage.given]
    · simp [hl, Stage.given]

theorem runTask_rep (d : Destroy) (h : Rep σ w) (hp : w.peers[i]? = some p) {t : Task}
    (hst : σ i = t.taken) :
    Ends (w.runTask d i t) (Rep (Function.update σ i t.ran)) OfConnection := by
  cases t with
  | connectEstablished => exact (connectEstablished_rep h hp hst).ends
  | removeConnectionInLoop => exact (removeConnectionInLoop_rep h hp hst).ends
  | connectDestroyed => exact connectDestroyed_rep d h hp hst

/-! ## The server -/

theorem concat_cases {ps : List Peer} (h : (ps ++ [p'])[j]? = some q) :
    (j = ps.length ∧ q = p') ∨ (j < ps.length ∧ ps[j]? = some q) := by
  rcases Nat.lt_trichotomy j ps.length with hlt | heq | hgt
  · rw [List.getElem?_append_left hlt] at h
    exact .inr ⟨hlt, h⟩
  · subst heq
    rw [List.getElem?_concat_length] at h
    exact .inl ⟨rfl, (Option.some.inj h).symm⟩
  · rw [List.getElem?_eq_none (by simp; omega)] at h
    exact absurd h (by simp)

/-- The table after the assignment, which replaces no entry. -/
theorem Rep.inserted (h : Rep σ w) (hid : w.server.nextConnId = (w.peers.length + 1 : Nat))
    (hsmall : w.peers.length + 1 < 2 ^ 31) (hname : p'.name = w.server.connName w.server.nextConnId)
    (n : List Char) (j : Nat) :
    (w.server.connections.insert (w.server.connName w.server.nextConnId) w.peers.length)[n]? = some j ↔
      ∃ q, (w.peers ++ [p'])[j]? = some q ∧ q.name = n ∧
        (Function.update σ w.peers.length .created j).isRemoved = false := by
  rw [Std.TreeMap.getElem?_insert]
  simp only [Std.LawfulEqCmp.compare_eq_iff_eq]
  split
  · rename_i hnew
    constructor
    · intro hj
      obtain rfl := Option.some.inj hj
      refine ⟨p', List.getElem?_concat_length, hname.trans hnew, ?_⟩
      rw [Function.update_self]
      rfl
    · rintro ⟨q, hq, hqname, -⟩
      rcases concat_cases hq with ⟨rfl, -⟩ | ⟨hlt, hold⟩
      · rfl
      · -- an earlier connection has another number, so another name
        rw [h.names j q hold, ← hnew, hid] at hqname
        have := connName_inj h.ipPort (m := j + 1) (by omega) hsmall hqname
        omega
  · rename_i hnew
    constructor
    · intro hj
      obtain ⟨q, hq, hqname, hr⟩ := (h.table n j).mp hj
      obtain ⟨hlt, -⟩ := List.getElem?_eq_some_iff.mp hq
      refine ⟨q, by rw [List.getElem?_append_left hlt]; exact hq, hqname, ?_⟩
      rw [Function.update_of_ne (Nat.ne_of_lt hlt)]
      exact hr
    · rintro ⟨q, hq, hqname, hr⟩
      rcases concat_cases hq with ⟨rfl, rfl⟩ | ⟨hlt, hold⟩
      · exact absurd (hname.symm.trans hqname) hnew
      · rw [Function.update_of_ne (Nat.ne_of_lt hlt)] at hr
        exact (h.table n j).mpr ⟨q, hold, hqname, hr⟩

/-- `newConnection` has made a connection, under a name that no other one has. -/
theorem addConnection_rep (h : Rep σ w) (hsmall : w.peers.length + 1 < 2 ^ 31) (ioLoop : Loop)
    (sockfd : Int) :
    Rep (Function.update σ w.peers.length .created) (w.addConnection ioLoop sockfd) := by
  have hid : w.server.nextConnId = (w.peers.length + 1 : Nat) := by
    rw [h.nextConnId]
    exact Int.bmod_eq_of_le (by omega) (by omega)
  have hlength : (w.addConnection ioLoop sockfd).peers.length = w.peers.length + 1 :=
    List.length_append
  refine ⟨h.alive, h.ipPort, ?_, ?_, fun j q hq => ?_, fun n j => ?_, fun j q hq => ?_,
    fun j l hj => ?_⟩
  · rw [hlength]
    exact hsmall
  · rw [hlength]
    show Int.bmod (w.server.nextConnId + 1) (2 ^ 32) = _
    rw [hid]
  · show q.name = w.server.connName (j + 1)
    rcases concat_cases hq with ⟨rfl, rfl⟩ | ⟨-, hold⟩
    · show w.server.connName w.server.nextConnId = _
      rw [hid]
      rfl
    · exact h.names j q hold
  · exact h.inserted hid hsmall rfl n j
  · rcases concat_cases hq with ⟨rfl, rfl⟩ | ⟨hlt, hold⟩
    · rw [Function.update_self]
      refine ⟨fun l => (h.later _ l le_rfl).1, fun l => ?_, fun _ => ⟨sockfd, _, rfl⟩, rfl, rfl, rfl,
        rfl⟩
      show (tasks (w.given l) w.peers.length).filter _ = []
      rw [(h.later _ l le_rfl).2]
      rfl
    · rw [Function.update_of_ne (Nat.ne_of_lt hlt)]
      exact (h.stage j q hold).frame rfl (fun _ => rfl) fun _ => rfl
  · rw [hlength] at hj
    exact h.later j l (by omega)

/-- `runInLoop` of the functor that the connection is to run next. -/
theorem runInLoop_rep (d : Destroy) (hp : w.peers[i]? = some p) {t : Task}
    {thread l₀ : Loop} (hgive : Rep (Function.update σ i t.taken) (w.give l₀ ⟨t, i⟩))
    (hqueued : ∀ l, t.waiting.queued w.server.loop p.loop l = if l = l₀ then [t] else []) :
    Ends (w.runInLoop d thread l₀ ⟨t, i⟩)
      (fun w' => ∃ st', st'.stable = true ∧ Rep (Function.update σ i st') w') OfConnection := by
  unfold World.runInLoop
  split
  · refine (runTask_rep d hgive hp (Function.update_self i _ σ)).mono fun w' hw' => ⟨t.ran, ?_, ?_⟩
    · cases t <;> rfl
    · rwa [Function.update_idem] at hw'
  · refine .ok ⟨t.waiting, ?_, ?_⟩
    · cases t <;> rfl
    · have hpush := hgive.push hp t.waiting l₀ t (fun l => ?_) (fun l => ?_) ?_
      · rwa [Function.update_idem] at hpush
      · rw [Function.update_self]
        show t.waiting.queued w.server.loop p.loop l = _
        rw [hqueued l]
        cases t <;> rfl
      · rw [Function.update_self]
        cases t <;> rfl
      · rw [Function.update_self]
        cases t <;> exact ⟨rfl, rfl, rfl, rfl⟩

end Move

/-! ## Runs -/

/-- The server is up and accepts fewer than 2^31 connections, and each connection
invokes its close callback at most once. -/
def Serving (w : World) : Act → Prop
  | .newConnection _ _ => w.peers.length + 1 < 2 ^ 31
  | .conn i a => ∀ p ∈ w.peers[i]?, invokesClose p.conn a = true → p.closed = 0
  | .runFunctor _ => True
  | .destroyBegin | .destroyEnd _ => False

instance decidableServing (w : World) : ∀ a, Decidable (Serving w a)
  | .newConnection _ _ => inferInstanceAs (Decidable (w.peers.length + 1 < 2 ^ 31))
  | .conn i a => inferInstanceAs
      (Decidable (∀ p ∈ w.peers[i]?, invokesClose p.conn a = true → p.closed = 0))
  | .runFunctor _ => inferInstanceAs (Decidable True)
  | .destroyBegin | .destroyEnd _ => inferInstanceAs (Decidable False)

def ServerInv (w : World) : Prop := ∃ σ, (∀ i, (σ i).stable = true) ∧ Rep σ w

section Runs

variable {σ : Nat → Stage} {w : World} {i : Nat} {p : Peer}

/-- All other connections stay where they are. -/
theorem ServerInv.of_rep (hstable : ∀ i, (σ i).stable = true) {st : Stage} (hst : st.stable = true)
    (h : Rep (Function.update σ i st) w) : ServerInv w := by
  refine ⟨_, fun j => ?_, h⟩
  by_cases hij : j = i
  · subst hij
    rw [Function.update_self]
    exact hst
  · rw [Function.update_of_ne hij]
    exact hstable j

theorem newConnection_inv (d : Destroy) (h : ServerInv w) (hsmall : w.peers.length + 1 < 2 ^ 31)
    (ioLoop : Loop) (sockfd : Int) :
    Ends (w.newConnection d ioLoop sockfd) ServerInv OfConnection := by
  obtain ⟨σ, hstable, hrep⟩ := h
  have hadd := addConnection_rep hrep hsmall ioLoop sockfd
  have hp : (w.addConnection ioLoop sockfd).peers[w.peers.length]? =
      some (.new ioLoop (w.server.connName w.server.nextConnId) sockfd
        w.server.writeCompleteCallback) := List.getElem?_concat_length
  have hgive := hadd.give hp .starting ioLoop .connectEstablished
    (fun l => by rw [Function.update_self]; rfl) (fun l => ?_) ?_
  · unfold World.newConnection
    rw [check_of _ hrep.not_destroyed, ok_bind]
    refine (runInLoop_rep d hp hgive fun l => rfl).mono fun w' hw' => ?_
    obtain ⟨st, hst, hw'⟩ := hw'
    rw [Function.update_idem] at hw'
    exact .of_rep hstable hst hw'
  · rw [Function.update_self]
    show (if l = ioLoop then _ else _) = _
    by_cases hl : l = ioLoop
    · simp [hl, Stage.given]
    · simp [hl, Stage.given]
  · rw [Function.update_self]
    exact ⟨rfl, rfl, rfl, rfl⟩

theorem runFunctor_inv (d : Destroy) (h : ServerInv w) (l : Loop) :
    Ends (w.runFunctor d l) ServerInv OfConnection := by
  obtain ⟨σ, hstable, hrep⟩ := h
  unfold World.runFunctor
  cases hqueue : w.queue l with
  | nil => exact .ok ⟨σ, hstable, hrep⟩
  | cons f rest =>
      obtain ⟨t, i⟩ := f
      obtain ⟨p, hp, htake⟩ := hrep.take hqueue
      refine (runTask_rep d htake hp (Function.update_self i _ σ)).mono fun w' hw' => ?_
      rw [Function.update_idem] at hw'
      refine .of_rep hstable ?_ hw'
      cases t <;> rfl

/-- Nothing reaches a connection before `connectEstablished` has run. -/
theorem not_reached {c : Connection.Conn} (h : Untouched c) {a : Connection.Act}
    (hreach : reaches c a = true) : ¬ Connection.Enabled c a := by
  obtain ⟨sockfd, writeComplete, rfl⟩ := h
  intro hen
  cases a with
  | poll revents => exact hen.2.1 rfl
  | next r wr => exact hen rfl
  | runFunctor wr => exact hen.2 rfl
  | timer => exact absurd hen.2 (by simp [Connection.Conn.new])
  | connectEstablished | sendInLoop _ _ | handleWrite _ | send _ _ | shutdown | forceClose
  | forceCloseWithDelay | startRead | stopRead | threadSend _ | threadSendPush _ | threadShutdown
  | threadShutdownPush | threadStartRead | threadStopRead =>
      exact absurd hreach (by simp [reaches, Connection.Conn.new])

theorem Stage.eq_up {st : Stage} (hest : st.established = true) (hclosed : st.closed = 0) :
    st = .up := by
  cases st with
  | up => rfl
  | created | waiting | starting => exact absurd hest (by simp [Stage.established])
  | removing | closing | removed | destroying | done => exact absurd hclosed (by simp [Stage.closed])

theorem connStep_inv (d : Destroy) (h : ServerInv w) (hp : w.peers[i]? = some p) {a : Connection.Act}
    (hreach : reaches p.conn a = true) (hen : Connection.Enabled p.conn a)
    (honce : invokesClose p.conn a = true → p.closed = 0) :
    Ends (w.connStep d i a) ServerInv OfConnection := by
  obtain ⟨σ, hstable, hrep⟩ := h
  have hs := hrep.stage i p hp
  have hest : (σ i).established = true := by
    cases hfalse : (σ i).established with
    | true => rfl
    | false => exact absurd hen (not_reached (hs.untouched hfalse) hreach)
  simp only [World.connStep, hp]
  refine ends_call (fun a => ⟨a, rfl⟩) fun c _ => ?_
  split
  · -- the close callback
    rename_i hclose
    have hup : σ i = .up := Stage.eq_up hest (hs.closed.symm.trans (honce hclose))
    rw [hup] at hs
    have hclosing : Rep (Function.update σ i .removing)
        { w with peers := w.peers.set i { p with conn := c, closed := p.closed + 1 } } := by
      refine hrep.move_in_table hp rfl rfl rfl rfl (fun _ _ _ => rfl) (fun _ _ _ => rfl) ?_ ?_
      · rw [hup]
        rfl
      · exact ⟨hs.queued, hs.given, fun hfalse => absurd hfalse (by simp [Stage.established]),
          hs.established, congrArg (· + 1) hs.closed, hs.removed, hs.destroyed⟩
    have hgive := hclosing.give (set_self hp _) .removing w.server.loop .removeConnectionInLoop
      (fun l => by rw [Function.update_self]) (fun l => by rw [Function.update_self]; simp)
      (by rw [Function.update_self]; exact ⟨rfl, rfl, rfl, rfl⟩)
    unfold World.removeConnection
    dsimp only
    rw [check_of _ hrep.not_destroyed, ok_bind]
    refine (runInLoop_rep d (set_self hp _) hgive fun l => rfl).mono fun w' hw' => ?_
    obtain ⟨st, hst, hw'⟩ := hw'
    rw [Function.update_idem] at hw'
    exact .of_rep hstable hst hw'
  · refine .ok (.of_rep hstable (hstable i) (hrep.move_in_table hp rfl rfl rfl rfl
      (fun _ _ _ => rfl) (fun _ _ _ => rfl) rfl ?_))
    exact ⟨hs.queued, hs.given, fun hfalse => absurd hfalse (by simp [hest]), hs.established, hs.closed,
      hs.removed, hs.destroyed⟩

theorem exec_serverInv (d : Destroy) (h : ServerInv w) (a : Act) (hen : enabled w a)
    (hserving : Serving w a) : Ends (exec d w a) ServerInv OfConnection := by
  cases a with
  | newConnection ioLoop sockfd => exact newConnection_inv d h hserving ioLoop sockfd
  | runFunctor l => exact runFunctor_inv d h l
  | conn i a =>
      obtain ⟨p, hp, -, hreach, hstep⟩ := hen
      exact connStep_inv d h hp hreach hstep (hserving p hp)
  | destroyBegin => exact absurd hserving id
  | destroyEnd joins => exact absurd hserving id

theorem new_serverInv (loop : Loop) {ipPort : List Char} (hip : ipPort.length ≤ 51)
    (name : List Char) (writeComplete : Bool) :
    ServerInv (World.new loop ipPort name writeComplete) := by
  refine ⟨fun _ => .up, fun _ => rfl, rfl, hip, Nat.two_pow_pos 31, ?_, ?_, fun n i => ?_, ?_,
    fun _ _ _ => ?_⟩
  · exact (Int.bmod_eq_of_le (by simp [World.new]) (by simp [World.new])).symm
  · intro i p hp
    exact absurd hp (by simp [World.new])
  · simp [World.new]
  · intro i p hp
    exact absurd hp (by simp [World.new])
  · exact ⟨rfl, rfl⟩

/-- The tasks of the connection, in its functors' words. -/
theorem filter_of_tasks (q : List Functor) (i : Nat) (keep : Task → Bool) :
    q.filter (fun f => f.conn = i ∧ keep f.task) = ((tasks q i).filter keep).map (⟨·, i⟩) := by
  induction q with
  | nil => rfl
  | cons f q ih =>
      obtain ⟨t, j⟩ := f
      by_cases hj : j = i
      · subst hj
        rw [tasks_cons_self, List.filter_cons, List.filter_cons, ih]
        cases keep t <;> simp
      · rw [tasks_cons_ne t hj, List.filter_cons, ← ih]
        simp [hj]

/-- What the stage of a connection says of its three functors: each one is queued on
its loop until it has run. -/
theorem AtStage.pending {st : Stage} (h : AtStage w i p st) (hst : st.stable = true) :
    (w.queue p.loop).count ⟨.connectEstablished, i⟩ + p.established.toNat = 1 ∧
    (w.queue w.server.loop).count ⟨.removeConnectionInLoop, i⟩ + p.removed.toNat = p.closed ∧
    (w.queue p.loop).count ⟨.connectDestroyed, i⟩ + p.destroyed.toNat = p.removed.toNat := by
  rw [← count_tasks, ← count_tasks, ← count_tasks, h.queued, h.queued, h.established, h.removed,
    h.closed, h.destroyed]
  cases st with
  | waiting | up | closing | removed | done =>
      simp [Stage.queued, Stage.established, Stage.isRemoved, Stage.isDestroyed, Stage.closed,
        apply_ite (List.count _)]
  | created | starting | removing | destroying => exact absurd hst (by simp [Stage.stable])

/-- `connectEstablished` and `connectDestroyed` are given to the connection's own loop,
in that order, the second when the connection has been removed. -/
theorem AtStage.order {st : Stage} (h : AtStage w i p st) (hst : st.stable = true) (l : Loop) :
    (w.given l).filter (fun f => f.conn = i ∧ f.task ≠ .removeConnectionInLoop) =
      if l = p.loop then
        ⟨.connectEstablished, i⟩ :: if p.removed = true then [⟨.connectDestroyed, i⟩] else []
      else [] := by
  have hfilter := filter_of_tasks (w.given l) i (· ≠ .removeConnectionInLoop)
  simp only [decide_eq_true_eq] at hfilter
  rw [hfilter, h.given, h.removed]
  cases st with
  | waiting | up | closing | removed | done =>
      by_cases hl : l = p.loop
      · simp [Stage.given, Stage.isRemoved, hl]
      · simp [Stage.given, hl]
  | created | starting | removing | destroying => exact absurd hst (by simp [Stage.stable])

theorem Stage.established_of_closed {st : Stage} (h : 0 < st.closed) : st.established = true := by
  cases st with
  | created | waiting | starting | up => exact absurd h (by simp [Stage.closed])
  | removing | closing | removed | destroying | done => rfl

/-- **The connection table is exact.** In every run of the server, its loops and its
connections, up to an assertion of a connection: the text of a connection's number is
never cut off, so no two connections have the same name; the table holds exactly the
connections whose `removeConnectionInLoop` has not run; each functor of a connection
is queued on its loop until it has run, and the last two are queued once, by the close
callback and by `removeConnectionInLoop`; the close callback is invoked only after
`connectEstablished` has run; and the connection's own loop is given
`connectEstablished`, then `connectDestroyed`, and no other loop is given either. The
assertion of `removeConnectionInLoop` stops no run. -/
theorem connections_exact (d : Destroy) (loop : Loop) (ipPort name : List Char)
    (writeComplete : Bool) (hip : ipPort.length ≤ 51) (acts : List Act)
    (h : (serverSys d).Legal (World.new loop ipPort name writeComplete) acts)
    (hserving : (serverSys d).Meets Serving (World.new loop ipPort name writeComplete) acts) :
    Ends ((serverSys d).runFrom (World.new loop ipPort name writeComplete) acts) (fun w =>
      (∀ (i : Nat) (p : Peer), w.peers[i]? = some p →
        p.name = w.server.name ++ ('-' :: w.server.ipPort ++ '#' :: decimal (i + 1))) ∧
      (∀ (i j : Nat) (p q : Peer), w.peers[i]? = some p → w.peers[j]? = some q →
        p.name = q.name → i = j) ∧
      (∀ n (i : Nat), w.server.connections[n]? = some i ↔
        ∃ p : Peer, w.peers[i]? = some p ∧ p.name = n ∧ p.removed = false) ∧
      ∀ (i : Nat) (p : Peer), w.peers[i]? = some p →
        (w.queue p.loop).count ⟨.connectEstablished, i⟩ + p.established.toNat = 1 ∧
        (w.queue w.server.loop).count ⟨.removeConnectionInLoop, i⟩ + p.removed.toNat = p.closed ∧
        (w.queue p.loop).count ⟨.connectDestroyed, i⟩ + p.destroyed.toNat = p.removed.toNat ∧
        (0 < p.closed → p.established = true) ∧
        ∀ l, (w.given l).filter (fun f => f.conn = i ∧ f.task ≠ .removeConnectionInLoop) =
          if l = p.loop then
            ⟨.connectEstablished, i⟩ :: if p.removed = true then [⟨.connectDestroyed, i⟩] else []
          else []) OfConnection := by
  have hrun := Sys.invariant_ends (S := serverSys d) (Q := OfConnection)
    (fun w a h hok => exec_serverInv d h a hok.1 hok.2)
    (new_serverInv loop hip name writeComplete) (Sys.meets_and.mpr ⟨h, hserving⟩)
  refine hrun.mono fun w hw => ?_
  obtain ⟨σ, hstable, hrep⟩ := hw
  have hnumber : ∀ {i : Nat} {p : Peer}, w.peers[i]? = some p → i + 1 < 2 ^ 31 := by
    intro i p hp
    obtain ⟨hi, -⟩ := List.getElem?_eq_some_iff.mp hp
    have := hrep.small
    omega
  refine ⟨fun i p hp => ?_, fun i j p q hp hq hname => ?_, fun n i => ?_, fun i p hp => ?_⟩
  · rw [hrep.names i p hp]
    exact connName_whole hrep.ipPort (n := i + 1) (hnumber hp)
  · rw [hrep.names i p hp, hrep.names j q hq] at hname
    have := connName_inj hrep.ipPort (m := i + 1) (n := j + 1) (hnumber hp) (hnumber hq) hname
    omega
  · rw [hrep.table n i]
    constructor
    · rintro ⟨p, hp, hname, hr⟩
      exact ⟨p, hp, hname, (hrep.stage i p hp).removed.trans hr⟩
    · rintro ⟨p, hp, hname, hr⟩
      exact ⟨p, hp, hname, (hrep.stage i p hp).removed.symm.trans hr⟩
  · have hs := hrep.stage i p hp
    obtain ⟨hestablish, hremove, hdestroy⟩ := hs.pending (hstable i)
    refine ⟨hestablish, hremove, hdestroy, fun hclosed => ?_, hs.order (hstable i)⟩
    rw [hs.established]
    exact Stage.established_of_closed (hs.closed ▸ hclosed)

/-- A connection of another loop hangs up, one of the server's own loop is closed by
its user, and a third one arrives when both are gone. -/
theorem connections_exact_two_loops :
    Lands ((serverSys fun c => .ok (c.setChannel c.channel.remove)).runFrom
      (World.new 0 ['h', ':', '1'] ['S'] false)
      [.newConnection 1 7, .newConnection 0 8, .runFunctor 1,
        .conn 0 (.poll { Events.kNoneEvent with pollhup := true }), .conn 0 (.next .eof (.accepts 0)),
        .conn 0 (.next .eof (.accepts 0)), .conn 1 .forceClose, .conn 1 (.runFunctor (.accepts 0)),
        .conn 1 (.next .eof (.accepts 0)), .runFunctor 0, .runFunctor 1, .runFunctor 0,
        .newConnection 1 7]) fun w =>
      w.peers.map (·.destroyed) = [true, true, false] ∧
      ∀ (i j : Nat) (p q : Peer), w.peers[i]? = some p → w.peers[j]? = some q →
        p.name = q.name → i = j := by
  have hspec := connections_exact (fun c => .ok (c.setChannel c.channel.remove)) 0 ['h', ':', '1'] ['S']
    false (by decide)
    [.newConnection 1 7, .newConnection 0 8, .runFunctor 1,
      .conn 0 (.poll { Events.kNoneEvent with pollhup := true }), .conn 0 (.next .eof (.accepts 0)),
      .conn 0 (.next .eof (.accepts 0)), .conn 1 .forceClose, .conn 1 (.runFunctor (.accepts 0)),
      .conn 1 (.next .eof (.accepts 0)), .runFunctor 0, .runFunctor 1, .runFunctor 0,
      .newConnection 1 7] (by decide +kernel) (by decide +kernel)
  have hrun : Lands ((serverSys fun c => .ok (c.setChannel c.channel.remove)).runFrom
      (World.new 0 ['h', ':', '1'] ['S'] false)
      [.newConnection 1 7, .newConnection 0 8, .runFunctor 1,
        .conn 0 (.poll { Events.kNoneEvent with pollhup := true }), .conn 0 (.next .eof (.accepts 0)),
        .conn 0 (.next .eof (.accepts 0)), .conn 1 .forceClose, .conn 1 (.runFunctor (.accepts 0)),
        .conn 1 (.next .eof (.accepts 0)), .runFunctor 0, .runFunctor 1, .runFunctor 0,
        .newConnection 1 7]) fun w => w.peers.map (·.destroyed) = [true, true, false] := by
    decide +kernel
  obtain ⟨w, hw, hdestroyed⟩ := hrun
  exact ⟨w, hw, hdestroyed, (hspec.1 w hw).2.1⟩

end Runs

end Muduo.Server
