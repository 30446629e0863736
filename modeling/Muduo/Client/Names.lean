import Mathlib
import Muduo.Client.Lifecycle
import Muduo.Lib.Format

/-!
# Names of a client's connections (`TcpClient::newConnection`, `sockets::toIpPort`)

`newConnection` names a connection after the client, the peer and `M_nextConnId`. Peer
and number are formatted into 32 bytes, and the number is the end of the text: of a long
address it is cut off.

The names are a history of the run. `M_nextConnId` is written by `newConnection` only, so
a step has called it when the number has moved.
-/

namespace Muduo.Client

open Lib

/-- An address as `inet_ntop` prints it, and a port. -/
structure PeerAddr where
  ip : List Char
  port : BitVec 16
  /-- `INET6_ADDRSTRLEN` is 46, with the terminating zero. -/
  length_ip : ip.length ≤ 45
  chars_ip : ∀ c ∈ ip, c ∈ "0123456789abcdef:.".toList

/-- `InetAddress::toIpPort`: its buffer has 64 bytes. -/
def PeerAddr.toIpPort (a : PeerAddr) : List Char :=
  a.ip ++ snprintf (64 - a.ip.length) (':' :: decimal a.port.toNat)

/-- `connName` in `TcpClient::newConnection`. -/
def connName (name : List Char) (peerAddr : PeerAddr) (nextConnId : Nat) : List Char :=
  name ++ snprintf 32 (':' :: peerAddr.toIpPort ++ '#' :: decimal nextConnId)

/-- A client with its name, and the connections it has made: peer and name. -/
structure NamedClient where
  client : TcpClient
  name : List Char
  made : List (PeerAddr × List Char)

namespace NamedClient

def new (name : List Char) : NamedClient := ⟨TcpClient.new, name, []⟩

/-- A step of the client; `peerAddr` is what `getPeerAddr` returns if it makes a
connection. -/
def exec (s : NamedClient) (a : ClientAct × PeerAddr) : Except ClientAssert NamedClient := do
  let client ← s.client.exec a.1
  return { s with
    client := client
    made := s.made ++ if client.nextConnId = s.client.nextConnId then []
      else [(a.2, connName s.name a.2 s.client.nextConnId)] }

end NamedClient

def namedSys : Sys NamedClient (ClientAct × PeerAddr) ClientAssert :=
  ⟨fun s a => s.client.enabled a.1, NamedClient.exec⟩

instance (s : NamedClient) (a : ClientAct × PeerAddr) : Decidable (namedSys.enabled s a) :=
  s.client.decidableEnabled a.1

/-! ## The number -/

section Number

variable {t : TcpClient}

theorem deliver_nextConnId (c : Connector) : (t.deliver c).nextConnId = t.nextConnId ∨
    (t.deliver c).nextConnId = t.nextConnId + 1 := by
  unfold TcpClient.deliver
  split
  · split
    · exact .inr rfl
    · exact .inl rfl
  · exact .inl rfl

theorem onConnector_nextConnId (f : Connector → Except Assert Connector) :
    Post (t.onConnector f) fun t' => t'.nextConnId = t.nextConnId := by
  intro t' ht'
  obtain ⟨c, -, heq⟩ := bind_eq_ok ht'
  obtain rfl := Except.ok.inj heq
  rfl

/-- A step makes at most one connection. -/
theorem client_exec_nextConnId (a : ClientAct) : Post (t.exec a) fun t' =>
    t'.nextConnId = t.nextConnId ∨ t'.nextConnId = t.nextConnId + 1 := by
  cases a with
  | connect savedErrno =>
      exact (onConnector_nextConnId (t := { t with connect := true })
        fun c => c.start savedErrno).mono fun _ h => .inl h
  | threadConnectStart =>
      exact (onConnector_nextConnId (t := { t with connecting := t.connecting - 1 })
        fun c => Client.exec c .threadStart).mono fun _ h => .inl h
  | threadStopStop =>
      exact (onConnector_nextConnId (t := { t with stopping := t.stopping - 1 })
        fun c => Client.exec c .threadStop).mono fun _ h => .inl h
  | connector a =>
      intro t' ht'
      obtain ⟨c, -, heq⟩ := bind_eq_ok ht'
      obtain rfl := Except.ok.inj heq
      exact deliver_nextConnId c
  | close conn savedErrno =>
      refine Post.check_bind fun _ => ?_
      dsimp only
      split
      · exact (onConnector_nextConnId fun c => c.restart savedErrno).mono fun _ h => .inl h
      · exact .ok (.inl rfl)
  | disconnect | stop | enableRetry | threadConnect | threadDisconnect
  | threadDisconnectShutdown | threadStop => exact .ok (.inl rfl)

end Number

/-- The connections are numbered from 1, and named by their numbers. -/
structure Numbered (s : NamedClient) : Prop where
  next : s.client.nextConnId = s.made.length + 1
  names : ∀ (k : Nat) c, s.made[k]? = some c → c.2 = connName s.name c.1 (k + 1)

theorem new_numbered (name : List Char) : Numbered (.new name) :=
  ⟨rfl, fun k c hc => absurd hc (by simp [NamedClient.new])⟩

theorem exec_numbered {s : NamedClient} (h : Numbered s) (a : ClientAct × PeerAddr) :
    Post (s.exec a) Numbered := by
  intro s' hs'
  obtain ⟨client, hclient, hs'⟩ := bind_eq_ok hs'
  obtain rfl := Except.ok.inj hs'
  rcases client_exec_nextConnId a.1 client hclient with hsame | hmade
  · refine ⟨?_, ?_⟩
    · rw [if_pos hsame, List.append_nil]
      exact hsame.trans h.next
    · rw [if_pos hsame, List.append_nil]
      exact h.names
  · have hne : client.nextConnId ≠ s.client.nextConnId := by omega
    refine ⟨?_, fun k c hc => ?_⟩
    · rw [if_neg hne, List.length_append, List.length_singleton, ← h.next]
      exact hmade
    · rw [if_neg hne, List.getElem?_append] at hc
      split at hc
      · exact h.names k c hc
      · have hk : k - s.made.length = 0 := by
          by_contra hk
          rw [List.getElem?_eq_none (by simp; omega)] at hc
          exact absurd hc (by simp)
        rw [hk] at hc
        obtain rfl := Option.some.inj hc
        have hnext : s.client.nextConnId = k + 1 := by
          rw [h.next]
          omega
        rw [hnext]

/-! ## When two names are the same -/

theorem length_decimal_port (port : BitVec 16) : (decimal port.toNat).length ≤ 5 :=
  length_decimal_le (by decide) (by have := port.isLt; omega)

/-- The buffer of `toIpPort` holds the whole text. -/
theorem toIpPort_whole (a : PeerAddr) : a.toIpPort = a.ip ++ ':' :: decimal a.port.toNat := by
  have hip := a.length_ip
  have hport := length_decimal_port a.port
  rw [PeerAddr.toIpPort, snprintf_of_fits]
  rw [List.length_cons]
  omega

theorem length_toIpPort (a : PeerAddr) : a.toIpPort.length ≤ 51 := by
  have hip := a.length_ip
  have hport := length_decimal_port a.port
  rw [toIpPort_whole, List.length_append, List.length_cons]
  omega

theorem sep_not_mem_toIpPort (a : PeerAddr) : '#' ∉ a.toIpPort := by
  rw [toIpPort_whole]
  intro h
  rcases List.mem_append.mp h with hip | hport
  · exact absurd (a.chars_ip _ hip) (by decide)
  · rcases List.mem_cons.mp hport with heq | hport
    · exact absurd heq (by decide)
    · exact absurd (isDigit_of_mem_decimal hport) (by decide)

/-- The texts of the two peers agree in 30 characters, and their numbers in the digits
that fit behind an address of that length. -/
def Collide (peer peer' : PeerAddr) (id id' : Nat) : Prop :=
  peer.toIpPort.take 30 = peer'.toIpPort.take 30 ∧
    (decimal id).take (29 - peer.toIpPort.length) = (decimal id').take (29 - peer.toIpPort.length)

instance (peer peer' : PeerAddr) (id id' : Nat) : Decidable (Collide peer peer' id id') :=
  inferInstanceAs (Decidable (_ ∧ _))

theorem connName_eq_iff (name : List Char) (peer peer' : PeerAddr) (id id' : Nat) :
    connName name peer id = connName name peer' id' ↔ Collide peer peer' id id' := by
  rw [connName, connName, List.append_cancel_left_eq]
  show (':' :: (peer.toIpPort ++ _)).take 31 = (':' :: (peer'.toIpPort ++ _)).take 31 ↔ _
  rw [List.take_succ_cons, List.take_succ_cons, List.cons.injEq, and_iff_right rfl]
  exact take_fields_eq_iff (sep_not_mem_toIpPort peer) (sep_not_mem_toIpPort peer') _ _ 29

/-- No two of these peers collide, numbered from 1. -/
def Distinguishable (peers : List PeerAddr) : Prop :=
  ∀ i j, i < j → ∀ p ∈ peers[i]?, ∀ q ∈ peers[j]?, ¬ Collide p q (i + 1) (j + 1)

/-- IPv4 addresses are short enough for a hundred million connections. -/
theorem distinguishable_of_short {peers : List PeerAddr}
    (hshort : ∀ p ∈ peers, p.toIpPort.length ≤ 21) (hcount : peers.length < 10 ^ 8) :
    Distinguishable peers := by
  rintro i j hij p hp q hq ⟨-, hids⟩
  have hj : j < peers.length := (List.getElem?_eq_some_iff.mp hq).1
  have hroom : 8 ≤ 29 - p.toIpPort.length := by
    have := hshort p (List.mem_of_getElem? hp)
    omega
  have hwhole : ∀ n, n < 10 ^ 8 →
      (decimal (n : Nat)).take (29 - p.toIpPort.length) = decimal (n : Nat) := by
    intro n hn
    exact List.take_of_length_le ((length_decimal_le (by decide) hn).trans hroom)
  rw [hwhole (i + 1) (by omega), hwhole (j + 1) (by omega)] at hids
  have := Int.ofNat.inj (decimal_injective hids)
  omega

/-- **Names of connections.** At the end of a run the names of a client's connections are
pairwise distinct if and only if no two of their peers collide. -/
theorem names_nodup_iff (name : List Char) (acts : List (ClientAct × PeerAddr))
    (hlegal : namedSys.Legal (.new name) acts) :
    Post (namedSys.runFrom (.new name) acts) fun s =>
      ((s.made.map Prod.snd).Nodup ↔ Distinguishable (s.made.map Prod.fst)) := by
  have hinv : Post (namedSys.runFrom (.new name) acts) Numbered :=
    Sys.invariant_post (S := namedSys) (fun s a h _ => exec_numbered h a) (new_numbered name) hlegal
  refine hinv.mono fun s h => ?_
  have hname : ∀ {k : Nat} {c : PeerAddr × List Char}, s.made[k]? = some c →
      c.2 = connName s.name c.1 (k + 1) := h.names _ _
  rw [List.nodup_iff_getElem?_ne_getElem?]
  simp only [Distinguishable, List.getElem?_map, Option.mem_def, Option.map_eq_some_iff]
  constructor
  · rintro hdistinct i j hij p ⟨c, hc, rfl⟩ q ⟨d, hd, rfl⟩ hcollide
    refine hdistinct i j hij ?_ ?_
    · rw [List.length_map]
      exact (List.getElem?_eq_some_iff.mp hd).1
    · rw [hc, hd, Option.map_some, Option.map_some, hname hc, hname hd,
        (connName_eq_iff s.name _ _ _ _).mpr hcollide]
  · intro hdistinct i j hij hj heq
    rw [List.length_map] at hj
    have hd := List.getElem?_eq_getElem hj
    have hc := List.getElem?_eq_getElem (hij.trans hj)
    rw [hc, hd, Option.map_some, Option.map_some, Option.some.injEq, hname hc, hname hd] at heq
    exact hdistinct i j hij _ ⟨_, hc, rfl⟩ _ ⟨_, hd, rfl⟩ ((connName_eq_iff s.name _ _ _ _).mp heq)

/-- A connection that is closed and replaced by a second one, to these peers. -/
def twoConnections (first second : PeerAddr) : List (ClientAct × PeerAddr) :=
  [(.enableRetry, first), (.connect none, first),
    (.connector (.poll { Events.kNoneEvent with pollout := true }), first),
    (.connector (.next false false), first), (.connector (.runFunctor none), first),
    (.close 0 (some .EINPROGRESS), second),
    (.connector (.poll { Events.kNoneEvent with pollout := true }), second),
    (.connector (.next false false), second)]

def peer4 : PeerAddr := ⟨"192.168.100.100".toList, 8080, by simp, by simp⟩

def peer6 : PeerAddr :=
  ⟨"2001:db8:85a3:8d3:1319:8a2e:370:7348".toList, 80, by simp, by simp⟩

/-- To the same IPv4 address twice. -/
theorem names_nodup_iff_peer4 : Post (namedSys.runFrom (.new "client".toList)
    (twoConnections peer4 peer4)) fun s =>
      ((s.made.map Prod.snd).Nodup ↔ Distinguishable (s.made.map Prod.fst)) :=
  names_nodup_iff _ _ (by decide +kernel)

/-- To the same IPv6 address twice: both names end in the middle of the address. -/
theorem names_of_peer6 :
    namedSys.Legal (.new "client".toList) (twoConnections peer6 peer6) ∧
      Lands (namedSys.runFrom (.new "client".toList) (twoConnections peer6 peer6)) fun s =>
        s.made.map Prod.snd = ["client:2001:db8:85a3:8d3:1319:8a2e:37".toList,
          "client:2001:db8:85a3:8d3:1319:8a2e:37".toList] ∧ ¬ (s.made.map Prod.snd).Nodup := by
  decide +kernel

end Muduo.Client
