import ArenaServ.EraseLoop
import ArenaServ.Socket

/-!
# The clients of the server

The server deletes the clients that are gone, and before it takes one more than it may have it
deletes some that it has not accepted. Either loop passes over the client behind a deleted one.
-/

namespace ArenaServ

/-- A client in the list of the server. -/
structure ServerClient extends Client where
  id : ℕ
  accepted : Bool
  closedTime : ℤ
  deriving DecidableEq, Repr

namespace ServerClient

/-- `Client::Close` by force. -/
def closeByForce (c : ServerClient) : ServerClient :=
  if c.connected then { c with connected := false, closedTime := 0 } else c

/-- Gone, with no operation pending and without buffers or for more than two seconds. -/
def dead (now : ℤ) (c : ServerClient) : Bool :=
  !c.connected && !c.asyncOpPending &&
    (c.sendBuffer.buffer.length == 0 && c.recvBuffer.buffer.length == 0 || c.closedTime + 2 < now)

end ServerClient

namespace Server

/-- A list of clients after a pass, and the clients that were deleted in it. -/
structure Pass where
  clients : List ServerClient
  deleted : List ServerClient

/-- `Server::BuryTheDead`. The pass comes to each client at a time of its own. -/
def buryTheDead (time : ServerClient → ℤ) (clients : List ServerClient) : Pass where
  clients := (Sweep.all (fun c => c.dead (time c)) clients).kept
  deleted := (Sweep.all (fun c => c.dead (time c)) clients).erased

/-- What comes of a connection. -/
inductive Polled where
  | nothing
  | refused
  | taken (newclient : ServerClient)
  deriving DecidableEq, Repr

/-- `Server::Poll`: the accepted connection, if there is one, gets a client unless the list is full
and stays full. -/
def poll (maxconn : ℕ) (newsock : Option ServerClient) (clients : List ServerClient) :
    Polled × Pass :=
  match newsock with
  | none => (.nothing, ⟨clients, []⟩)
  | some newclient =>
      if maxconn ≤ clients.length then
        let room := Sweep.room maxconn (fun c => !c.accepted) clients
        let deleted := room.erased.map ServerClient.closeByForce
        if maxconn ≤ room.kept.length then (.refused, ⟨room.kept, deleted⟩)
        else (.taken newclient, ⟨room.kept ++ [newclient], deleted⟩)
      else (.taken newclient, ⟨clients ++ [newclient], []⟩)

/-- The dead are deleted and the others stay in order, and a connection is refused only if all that
are left are accepted. -/
structure ListExact (time : ServerClient → ℤ) (maxconn : ℕ) (newsock : Option ServerClient)
    (clients : List ServerClient) : Prop where
  clients_eq : (buryTheDead time clients).clients = clients.filter fun c => !c.dead (time c)
  deleted_eq : (buryTheDead time clients).deleted = clients.filter fun c => c.dead (time c)
  accepted_of_refused : (poll maxconn newsock clients).1 = .refused →
    ∀ c ∈ (poll maxconn newsock clients).2.clients, c.accepted = true

variable {time : ServerClient → ℤ} {maxconn : ℕ} {newsock : Option ServerClient}
  {newclient : ServerClient} {clients : List ServerClient}

theorem buryTheDead_iff :
    (buryTheDead time clients).clients = clients.filter (fun c => !c.dead (time c)) ∧
      (buryTheDead time clients).deleted = clients.filter (fun c => c.dead (time c)) ↔
      Sweep.Apart (fun c => c.dead (time c)) (fun c => c.dead (time c)) clients :=
  Sweep.all_iff

/-- A connection is refused exactly when there is no room after the loop. -/
theorem refused_iff : (poll maxconn (some newclient) clients).1 = .refused ↔
    maxconn ≤ (Sweep.room maxconn (fun c => !c.accepted) clients).kept.length := by
  have hle : (Sweep.room maxconn (fun c => !c.accepted) clients).kept.length ≤ clients.length :=
    Sweep.kept_sublist.length_le
  unfold poll
  dsimp only
  by_cases hfull : maxconn ≤ clients.length
  · rw [if_pos hfull]
    by_cases hroom : maxconn ≤ (Sweep.room maxconn (fun c => !c.accepted) clients).kept.length
    · rw [if_pos hroom]
      exact iff_of_true rfl hroom
    · rw [if_neg hroom]
      exact iff_of_false (fun h => by cases h) hroom
  · rw [if_neg hfull]
    exact iff_of_false (fun h => by cases h) (by omega)

theorem clients_of_refused (h : (poll maxconn (some newclient) clients).1 = .refused) :
    (poll maxconn (some newclient) clients).2.clients =
      (Sweep.room maxconn (fun c => !c.accepted) clients).kept := by
  have hroom := refused_iff.1 h
  have hle : (Sweep.room maxconn (fun c => !c.accepted) clients).kept.length ≤ clients.length :=
    Sweep.kept_sublist.length_le
  unfold poll
  dsimp only
  rw [if_pos (hroom.trans hle), if_pos hroom]

/-- All that are left at a refusal are accepted, unless the deleted clients make no room and two
neighbours are not accepted. -/
theorem accepted_of_refused_iff :
    ((poll maxconn newsock clients).1 = .refused →
      ∀ c ∈ (poll maxconn newsock clients).2.clients, c.accepted = true) ↔
      (newsock.isSome → maxconn + (Sweep.alternate (fun c => !c.accepted) clients).length ≤
        clients.length → Sweep.Apart (fun c => !c.accepted) (fun c => !c.accepted) clients) := by
  cases newsock with
  | none => exact iff_of_true (fun h => by cases h) (fun h => by cases h)
  | some newclient =>
      rw [← Sweep.room_iff, ← @refused_iff maxconn newclient]
      constructor
      · intro h _ hrefused c hc
        rw [← clients_of_refused hrefused] at hc
        rw [h hrefused c hc]
        rfl
      · intro h hrefused c hc
        rw [clients_of_refused hrefused] at hc
        have hc := h rfl hrefused c hc
        rwa [Bool.not_eq_false'] at hc

/-- Both loops do what they are for if and only if no two neighbours are dead and, where deleting
every other one of neighbouring clients that are not accepted makes no room for a connection, no two
neighbours are not accepted. -/
theorem listExact_iff :
    ListExact time maxconn newsock clients ↔
      Sweep.Apart (fun c => c.dead (time c)) (fun c => c.dead (time c)) clients ∧
        (newsock.isSome → maxconn + (Sweep.alternate (fun c => !c.accepted) clients).length ≤
          clients.length → Sweep.Apart (fun c => !c.accepted) (fun c => !c.accepted) clients) := by
  rw [← buryTheDead_iff, ← accepted_of_refused_iff]
  constructor
  · intro h
    exact ⟨⟨h.clients_eq, h.deleted_eq⟩, h.accepted_of_refused⟩
  · rintro ⟨⟨hclients, hdeleted⟩, haccepted⟩
    exact ⟨hclients, hdeleted, haccepted⟩

/-- A client that was closed by force before it was accepted. -/
def goneClient (id : ℕ) : ServerClient :=
  { Client.new with
    connected := false
    recvBuffer := RingBuffer.blank (32 * 1024) 0
    sendBuffer := RingBuffer.blank (32 * 1024) 0
    id := id
    accepted := false
    closedTime := 0 }

/-- Of two neighbours that are gone one stays, and a connection is refused for it. -/
theorem not_listExact_neighbours :
    ¬ListExact (fun _ => 10) 1 (some (goneClient 2)) [goneClient 0, goneClient 1] := by
  intro h
  have hgone := h.accepted_of_refused rfl (goneClient 1) List.mem_cons_self
  cases hgone

end Server

end ArenaServ
