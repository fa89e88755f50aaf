import Mathlib.Logic.Relation
import Mathlib.Logic.Function.Basic
import Mathlib.Data.List.Basic

/-!
Requests and replies over byte streams.

Any number of peers talk to one server.  Each peer has a stream in either direction, whose
bytes arrive in order and in pieces of any size.  A peer may send before its earlier requests
are answered; the server answers one request at a time, in any order of the peers.
-/

namespace PriorityFabric.Lib.Exchanges

abbrev Bytes := List UInt8

/-- How requests and replies are spelled, and what the server does with a request.  A reply
is read by a peer that knows the request it is waiting for. -/
structure Protocol (σ α β : Type) where
  encodeRequest : α → Bytes
  encodeReply : β → Bytes
  readRequest : Bytes → Option (α × Bytes)
  readReply : α → Bytes → Option (β × Bytes)
  sends : α → Prop
  serves : σ → α → β → σ → Prop

/-- A reader takes what it reads from the front and does not depend on what follows. -/
structure Fronted {γ : Type} (read : Bytes → Option (γ × Bytes)) : Prop where
  nil : read [] = none
  append : ∀ {bytes rest : Bytes} {c : γ}, read bytes = some (c, rest) →
    ∀ more, read (bytes ++ more) = some (c, rest ++ more)

/-- What is read where `c` was written is `c`.  It need not be read at all. -/
def ReadsBack {γ : Type} (read : Bytes → Option (γ × Bytes)) (enc : γ → Bytes) (c : γ) : Prop :=
  ∀ (rest rest' : Bytes) (c' : γ), read (enc c ++ rest) = some (c', rest') →
    c' = c ∧ rest' = rest

/-- The readers of a protocol read back what is sent and what is answered. -/
structure Protocol.Framed {σ α β : Type} (P : Protocol σ α β) : Prop where
  requests : Fronted P.readRequest
  replies : ∀ a, Fronted (P.readReply a)
  readsBack_request : ∀ a, P.sends a → ReadsBack P.readRequest P.encodeRequest a
  readsBack_reply : ∀ s a b s', P.sends a → P.serves s a b s' →
    ReadsBack (P.readReply a) P.encodeReply b

/-- A stream: the bytes that have arrived and those on their way. -/
structure Pipe where
  arrived : Bytes := []
  transit : Bytes := []

namespace Pipe

def bytes (pipe : Pipe) : Bytes := pipe.arrived ++ pipe.transit

def push (pipe : Pipe) (bytes : Bytes) : Pipe := { pipe with transit := pipe.transit ++ bytes }

def deliver (pipe : Pipe) (count : Nat) : Pipe where
  arrived := pipe.arrived ++ pipe.transit.take count
  transit := pipe.transit.drop count

@[simp] theorem bytes_push (pipe : Pipe) (bytes : Bytes) :
    (pipe.push bytes).bytes = pipe.bytes ++ bytes := by
  simp [Pipe.bytes, push]

@[simp] theorem bytes_deliver (pipe : Pipe) (count : Nat) :
    (pipe.deliver count).bytes = pipe.bytes := by
  simp [Pipe.bytes, deliver]

theorem deliver_push (bytes : Bytes) :
    (({} : Pipe).push bytes).deliver bytes.length = { arrived := bytes } := by
  simp [push, deliver]

end Pipe

/-- What is read from the arrived part of a queue of encodings is the head of the queue. -/
theorem Fronted.head {γ : Type} {read : Bytes → Option (γ × Bytes)} (h : Fronted read)
    {enc : γ → Bytes} {queue : List γ}
    (hencode : ∀ c, queue.head? = some c → ReadsBack read enc c) {pipe : Pipe}
    (hbytes : pipe.bytes = queue.flatMap enc) {c : γ} {rest : Bytes}
    (hread : read pipe.arrived = some (c, rest)) :
    ∃ tail, queue = c :: tail ∧ rest ++ pipe.transit = tail.flatMap enc := by
  have hall : read pipe.bytes = some (c, rest ++ pipe.transit) := h.append hread pipe.transit
  cases queue with
  | nil =>
      rw [hbytes, List.flatMap_nil, h.nil] at hall
      cases hall
  | cons first tail =>
      rw [hbytes, List.flatMap_cons] at hall
      obtain ⟨rfl, hrest⟩ := hencode first rfl _ _ _ hall
      exact ⟨tail, rfl, hrest⟩

/-- What one peer has sent and read, and its streams.  With each request sent and each reply
read goes the number of requests the server had answered by then. -/
structure Peer (α β : Type) where
  sent : List (α × Nat) := []
  up : Pipe := {}
  down : Pipe := {}
  got : List (β × Nat) := []

/-- The server, its peers, and the requests it has answered, in order. -/
structure World (ι σ α β : Type) where
  server : σ
  peers : ι → Peer α β := fun _ => {}
  log : List (ι × α × β) := []

section Runs

variable {ι σ α β : Type} [DecidableEq ι] (P : Protocol σ α β) (moves : σ → σ → Prop)

namespace World

def withPeer (w : World ι σ α β) (i : ι) (peer : Peer α β) : World ι σ α β :=
  { w with peers := Function.update w.peers i peer }

def send (w : World ι σ α β) (i : ι) (a : α) : World ι σ α β :=
  w.withPeer i { w.peers i with
    sent := (w.peers i).sent ++ [(a, w.log.length)]
    up := (w.peers i).up.push (P.encodeRequest a) }

def arriveUp (w : World ι σ α β) (i : ι) (count : Nat) : World ι σ α β :=
  w.withPeer i { w.peers i with up := (w.peers i).up.deliver count }

def arriveDown (w : World ι σ α β) (i : ι) (count : Nat) : World ι σ α β :=
  w.withPeer i { w.peers i with down := (w.peers i).down.deliver count }

/-- The server takes a request off the stream of a peer and answers it. -/
def answer (w : World ι σ α β) (i : ι) (a : α) (b : β) (rest : Bytes) (s : σ) :
    World ι σ α β where
  server := s
  peers := Function.update w.peers i { w.peers i with
    up := { (w.peers i).up with arrived := rest }
    down := (w.peers i).down.push (P.encodeReply b) }
  log := w.log ++ [(i, a, b)]

def read (w : World ι σ α β) (i : ι) (b : β) (rest : Bytes) : World ι σ α β :=
  w.withPeer i { w.peers i with
    down := { (w.peers i).down with arrived := rest }
    got := (w.peers i).got ++ [(b, w.log.length)] }

section Peers

variable (w : World ι σ α β) (i : ι)

theorem peers_send (a : α) : (w.send P i a).peers i = { w.peers i with
    sent := (w.peers i).sent ++ [(a, w.log.length)]
    up := (w.peers i).up.push (P.encodeRequest a) } := Function.update_self _ _ _

theorem peers_arriveUp (count : Nat) : (w.arriveUp i count).peers i =
    { w.peers i with up := (w.peers i).up.deliver count } := Function.update_self _ _ _

theorem peers_arriveDown (count : Nat) : (w.arriveDown i count).peers i =
    { w.peers i with down := (w.peers i).down.deliver count } := Function.update_self _ _ _

theorem peers_answer (a : α) (b : β) (rest : Bytes) (s : σ) :
    (w.answer P i a b rest s).peers i = { w.peers i with
      up := { (w.peers i).up with arrived := rest }
      down := (w.peers i).down.push (P.encodeReply b) } := Function.update_self _ _ _

theorem peers_read (b : β) (rest : Bytes) : (w.read i b rest).peers i = { w.peers i with
    down := { (w.peers i).down with arrived := rest }
    got := (w.peers i).got ++ [(b, w.log.length)] } := Function.update_self _ _ _

end Peers

end World

/-- One event: a peer sends or reads, bytes arrive, the server answers or moves by itself. -/
inductive Step : World ι σ α β → World ι σ α β → Prop
  | send (w : World ι σ α β) (i : ι) (a : α) (hsends : P.sends a) : Step w (w.send P i a)
  | arriveUp (w : World ι σ α β) (i : ι) (count : Nat) : Step w (w.arriveUp i count)
  | arriveDown (w : World ι σ α β) (i : ι) (count : Nat) : Step w (w.arriveDown i count)
  | answer (w : World ι σ α β) (i : ι) {a : α} {b : β} {rest : Bytes} {s : σ}
      (hread : P.readRequest (w.peers i).up.arrived = some (a, rest))
      (hserves : P.serves w.server a b s) : Step w (w.answer P i a b rest s)
  | read (w : World ι σ α β) (i : ι) {a : α} {b : β} {stamp : Nat} {rest : Bytes}
      (hasked : (w.peers i).sent[(w.peers i).got.length]? = some (a, stamp))
      (hread : P.readReply a (w.peers i).down.arrived = some (b, rest)) :
      Step w (w.read i b rest)
  | move (w : World ι σ α β) {s : σ} (hmoves : moves w.server s) : Step w { w with server := s }

abbrev Reachable (start : σ) : World ι σ α β → Prop :=
  Relation.ReflTransGen (Step P moves) { server := start }

/-- The server gets from one state to another by answering these requests, in this order,
and by moves of its own. -/
inductive Executes (start : σ) : List (ι × α × β) → σ → Prop
  | nil : Executes start [] start
  | serve {log : List (ι × α × β)} {s s' : σ} (h : Executes start log s) (i : ι) {a : α} {b : β}
      (hserves : P.serves s a b s') : Executes start (log ++ [(i, a, b)]) s'
  | move {log : List (ι × α × β)} {s s' : σ} (h : Executes start log s) (hmoves : moves s s') :
      Executes start log s'

variable {P} {moves}

section Executions

omit [DecidableEq ι]

variable {start s : σ} {i : ι} {a : α} {b : β}

theorem Executes.trans {middle : σ} {first second : List (ι × α × β)}
    (h : Executes P moves start first middle) (h' : Executes P moves middle second s) :
    Executes P moves start (first ++ second) s := by
  induction h' with
  | nil => rwa [List.append_nil]
  | move _ hmoves ih => exact ih.move hmoves
  | serve _ i hserves ih =>
      rw [← List.append_assoc]
      exact ih.serve i hserves

theorem Executes.split {first second : List (ι × α × β)}
    (h : Executes P moves start (first ++ second) s) :
    ∃ middle, Executes P moves start first middle ∧ Executes P moves middle second s := by
  generalize hlog : first ++ second = log at h
  induction h generalizing second with
  | nil =>
      obtain ⟨rfl, rfl⟩ := List.append_eq_nil_iff.mp hlog
      exact ⟨start, .nil, .nil⟩
  | move h hmoves ih =>
      obtain ⟨middle, hfirst, hsecond⟩ := ih hlog
      exact ⟨middle, hfirst, hsecond.move hmoves⟩
  | @serve log s s' h i a b hserves ih =>
      rcases List.eq_nil_or_concat second with rfl | ⟨front, entry, rfl⟩
      · rw [List.append_nil] at hlog
        subst hlog
        exact ⟨s', h.serve i hserves, .nil⟩
      · rw [List.concat_eq_append, ← List.append_assoc] at hlog
        obtain ⟨hfront, hentry⟩ := List.append_inj' hlog rfl
        rw [List.singleton_inj] at hentry
        subst hentry
        obtain ⟨middle, hfirst, hsecond⟩ := ih hfront
        refine ⟨middle, hfirst, ?_⟩
        rw [List.concat_eq_append]
        exact hsecond.serve i hserves

theorem Executes.single (h : Executes P moves start [(i, a, b)] s) :
    ∃ before after, Executes P moves start ([] : List (ι × α × β)) before ∧
      P.serves before a b after ∧ Executes P moves after ([] : List (ι × α × β)) s := by
  generalize hlog : [(i, a, b)] = log at h
  induction h with
  | nil => cases hlog
  | move _ hmoves ih =>
      obtain ⟨before, after, hbefore, hserves, hafter⟩ := ih hlog
      exact ⟨before, after, hbefore, hserves, hafter.move hmoves⟩
  | @serve log s s' h j a' b' hserves ih =>
      have hboth : [] ++ [(i, a, b)] = log ++ [(j, a', b')] := hlog
      obtain ⟨rfl, hentry⟩ := List.append_inj' hboth rfl
      cases hentry
      exact ⟨s, s', h, hserves, .nil⟩

/-- Every entry of the log is one answer, given in a state the entries before it lead to. -/
theorem Executes.at {log : List (ι × α × β)} (h : Executes P moves start log s) {p : Nat}
    (hentry : log[p]? = some (i, a, b)) :
    ∃ before after, Executes P moves start (log.take p) before ∧
      P.serves before a b after ∧ Executes P moves after (log.drop (p + 1)) s := by
  obtain ⟨hlt, hget⟩ := List.getElem?_eq_some_iff.mp hentry
  have hlog : log = log.take p ++ ([(i, a, b)] ++ log.drop (p + 1)) := by
    conv_lhs => rw [← List.take_append_drop p log, List.drop_eq_getElem_cons hlt, hget]
    rfl
  rw [hlog] at h
  obtain ⟨first, hfirst, hrest⟩ := h.split
  obtain ⟨last, hone, hlast⟩ := hrest.split
  obtain ⟨before, after, hbefore, hserves, hafter⟩ := hone.single
  refine ⟨before, after, ?_, hserves, ?_⟩
  · have hboth := hfirst.trans hbefore
    rwa [List.append_nil] at hboth
  · exact hafter.trans hlast

theorem Executes.between {log : List (ι × α × β)} (h : Executes P moves start log s)
    {p q : Nat} {j : ι} {a' : α} {b' : β} (hpq : p < q) (hp : log[p]? = some (i, a, b))
    (hq : log[q]? = some (j, a', b')) :
    ∃ before after before' after' : σ, Executes P moves start (log.take p) before ∧
      P.serves before a b after ∧
      Executes P moves after ((log.drop (p + 1)).take (q - (p + 1))) before' ∧
      P.serves before' a' b' after' := by
  obtain ⟨before, after, hbefore, hserves, hafter⟩ := h.at hp
  have hsecond : (log.drop (p + 1))[q - (p + 1)]? = some (j, a', b') := by
    rw [List.getElem?_drop, ← hq]
    congr 1
    omega
  obtain ⟨before', after', hbefore', hserves', -⟩ := hafter.at hsecond
  exact ⟨before, after, before', after', hbefore, hserves, hbefore', hserves'⟩

end Executions

def answered (i : ι) (log : List (ι × α × β)) : List (α × β) :=
  (log.filter (·.1 = i)).map (·.2)

theorem answered_append (i : ι) (log more : List (ι × α × β)) :
    answered i (log ++ more) = answered i log ++ answered i more := by
  simp [answered]

theorem answered_self (i : ι) (a : α) (b : β) : answered i [(i, a, b)] = [(a, b)] := by
  simp [answered]

theorem answered_ne {i j : ι} (h : j ≠ i) (a : α) (b : β) : answered i [(j, a, b)] = [] := by
  simp [answered, h]

/-- A log that grows between two moments from at most `k` answers to one peer to more than `k`
answers gives the answer number `k` in between. -/
theorem answered_between (i : ι) {log : List (ι × α × β)} {k m n : Nat} (hn : n ≤ log.length)
    (hm : (answered i (log.take m)).length ≤ k) (hk : k < (answered i (log.take n)).length) :
    ∃ p a b, m ≤ p ∧ p < n ∧ log[p]? = some (i, a, b) ∧
      (answered i (log.take p)).length = k := by
  induction n with
  | zero => simp [answered] at hk
  | succ n ih =>
      have hsplit : log.take (n + 1) = log.take n ++ [log[n]] :=
        (List.take_append_getElem hn).symm
      rcases Nat.lt_or_ge k (answered i (log.take n)).length with hearlier | hhere
      · obtain ⟨p, a, b, hfrom, hto, hentry⟩ := ih (by omega) hearlier
        exact ⟨p, a, b, hfrom, by omega, hentry⟩
      · obtain ⟨⟨j, a, b⟩, hlast⟩ : ∃ entry, log[n] = entry := ⟨_, rfl⟩
        rw [hsplit, hlast, answered_append, List.length_append] at hk
        rcases eq_or_ne j i with rfl | hne
        · rw [answered_self, List.length_singleton] at hk
          refine ⟨n, a, b, ?_, by omega, ?_, by omega⟩
          · by_contra hlate
            have hgrows : (answered j (log.take m)).length =
                (answered j (log.take (n + 1))).length +
                  (answered j ((log.take m).drop (n + 1))).length := by
              conv_lhs => rw [← List.take_append_drop (n + 1) (log.take m), answered_append,
                List.length_append, List.take_take, Nat.min_eq_left (by omega)]
            rw [hgrows, hsplit, hlast, answered_append, List.length_append, answered_self,
              List.length_singleton] at hm
            omega
          · rw [List.getElem?_eq_getElem hn, hlast]
        · rw [answered_ne hne] at hk
          simp at hk
          omega

theorem getElem?_answered {i : ι} {log : List (ι × α × β)} {p : Nat} {a : α} {b : β}
    (hentry : log[p]? = some (i, a, b)) :
    (answered i log)[(answered i (log.take p)).length]? = some (a, b) := by
  obtain ⟨hlt, hget⟩ := List.getElem?_eq_some_iff.mp hentry
  have hsplit : log = log.take p ++ ([(i, a, b)] ++ log.drop (p + 1)) := by
    conv_lhs => rw [← List.take_append_drop p log, List.drop_eq_getElem_cons hlt, hget]
    rfl
  have hanswered : answered i log =
      answered i (log.take p) ++ ([(a, b)] ++ answered i (log.drop (p + 1))) := by
    conv_lhs => rw [hsplit, answered_append, answered_append, answered_self]
  rw [hanswered, List.getElem?_append_right (Nat.le_refl _), Nat.sub_self]
  rfl

section Paired

variable (P)

/-- The requests of a peer are those answered and those on their way; the answers are those
the peer has read and those on their way. -/
structure Paired (entries : List (α × β)) (peer : Peer α β) : Prop where
  sends : ∀ entry ∈ peer.sent, P.sends entry.1
  served : ∀ entry ∈ entries, ∃ s s', P.serves s entry.1 entry.2 s'
  queues : ∃ waiting unread, peer.sent.map Prod.fst = entries.map Prod.fst ++ waiting ∧
    peer.up.bytes = waiting.flatMap P.encodeRequest ∧
    entries.map Prod.snd = peer.got.map Prod.fst ++ unread ∧
    peer.down.bytes = unread.flatMap P.encodeReply

omit [DecidableEq ι]

theorem paired_start : Paired P [] ({} : Peer α β) where
  sends a h := by cases h
  served entry h := by cases h
  queues := ⟨[], [], rfl, rfl, rfl, rfl⟩

variable {P} {entries : List (α × β)} {peer : Peer α β}

theorem Paired.send (h : Paired P entries peer) {a : α} (hsends : P.sends a) (stamp : Nat) :
    Paired P entries { peer with
      sent := peer.sent ++ [(a, stamp)], up := peer.up.push (P.encodeRequest a) } := by
  obtain ⟨waiting, unread, hsent, hup, hgot, hdown⟩ := h.queues
  refine ⟨?_, h.served, waiting ++ [a], unread, ?_, ?_, hgot, hdown⟩
  · intro entry hentry
    rcases List.mem_append.mp hentry with hold | hnew
    · exact h.sends entry hold
    · rw [List.mem_singleton.mp hnew]
      exact hsends
  · rw [List.map_append, hsent, List.append_assoc]
    rfl
  · rw [Pipe.bytes_push, hup, List.flatMap_append, List.flatMap_singleton]

theorem Paired.arriveUp (h : Paired P entries peer) (count : Nat) :
    Paired P entries { peer with up := peer.up.deliver count } := by
  refine ⟨h.sends, h.served, ?_⟩
  simpa only [Pipe.bytes_deliver] using h.queues

theorem Paired.arriveDown (h : Paired P entries peer) (count : Nat) :
    Paired P entries { peer with down := peer.down.deliver count } := by
  refine ⟨h.sends, h.served, ?_⟩
  simpa only [Pipe.bytes_deliver] using h.queues

theorem Paired.answer (hframed : P.Framed) (h : Paired P entries peer) {a : α} {b : β}
    {rest : Bytes} {s s' : σ} (hread : P.readRequest peer.up.arrived = some (a, rest))
    (hserves : P.serves s a b s') :
    Paired P (entries ++ [(a, b)]) { peer with
      up := { peer.up with arrived := rest }, down := peer.down.push (P.encodeReply b) } := by
  obtain ⟨waiting, unread, hsent, hup, hgot, hdown⟩ := h.queues
  have hencode (c : α) (hc : waiting.head? = some c) :
      ReadsBack P.readRequest P.encodeRequest c := by
    have hmem : c ∈ peer.sent.map Prod.fst := by
      rw [hsent]
      exact List.mem_append_right _ (List.mem_of_mem_head? hc)
    obtain ⟨entry, hentry, rfl⟩ := List.mem_map.mp hmem
    exact hframed.readsBack_request entry.1 (h.sends entry hentry)
  obtain ⟨tail, rfl, htail⟩ := hframed.requests.head hencode hup hread
  refine ⟨h.sends, ?_, tail, unread ++ [b], ?_, htail, ?_, ?_⟩
  · intro entry hentry
    rcases List.mem_append.mp hentry with hold | hnew
    · exact h.served entry hold
    · rw [List.mem_singleton.mp hnew]
      exact ⟨s, s', hserves⟩
  · simpa using hsent
  · rw [List.map_append, hgot]
    simp
  · rw [Pipe.bytes_push, hdown, List.flatMap_append, List.flatMap_singleton]

theorem Paired.asked (h : Paired P entries peer) {k : Nat} {entry : α × β}
    (hentry : entries[k]? = some entry) : ∃ stamp, peer.sent[k]? = some (entry.1, stamp) := by
  obtain ⟨waiting, -, hsent, -⟩ := h.queues
  have hk : k < entries.length := (List.getElem?_eq_some_iff.mp hentry).1
  have hrequest : (peer.sent.map Prod.fst)[k]? = some entry.1 := by
    rw [hsent, List.getElem?_append_left (by rwa [List.length_map]), List.getElem?_map, hentry]
    rfl
  rw [List.getElem?_map, Option.map_eq_some_iff] at hrequest
  obtain ⟨found, hfound, hfirst⟩ := hrequest
  exact ⟨found.2, by rw [hfound, ← hfirst]⟩

theorem Paired.read (hframed : P.Framed) (h : Paired P entries peer) {a : α} {b : β}
    {stamp : Nat} {rest : Bytes} (hasked : peer.sent[peer.got.length]? = some (a, stamp))
    (hread : P.readReply a peer.down.arrived = some (b, rest)) (now : Nat) :
    Paired P entries { peer with
      down := { peer.down with arrived := rest }, got := peer.got ++ [(b, now)] } ∧
      peer.got.length < entries.length := by
  obtain ⟨waiting, unread, hsent, hup, hgot, hdown⟩ := h.queues
  have hencode (c : β) (hc : unread.head? = some c) :
      ReadsBack (P.readReply a) P.encodeReply c := by
    obtain ⟨tail, rfl⟩ := List.head?_eq_some_iff.mp hc
    have hreply : (entries.map Prod.snd)[peer.got.length]? = some c := by
      rw [hgot]
      simp
    rw [List.getElem?_map, Option.map_eq_some_iff] at hreply
    obtain ⟨entry, hentry, rfl⟩ := hreply
    obtain ⟨stamp', hrequest⟩ := h.asked hentry
    rw [hasked, Option.some.injEq, Prod.mk.injEq] at hrequest
    obtain ⟨rfl, -⟩ := hrequest
    obtain ⟨s, s', hserves⟩ := h.served entry (List.mem_of_getElem? hentry)
    exact hframed.readsBack_reply s _ _ s' (h.sends _ (List.mem_of_getElem? hasked)) hserves
  obtain ⟨tail, rfl, htail⟩ := (hframed.replies a).head hencode hdown hread
  refine ⟨⟨h.sends, h.served, waiting, tail, hsent, hup, ?_, htail⟩, ?_⟩
  · rw [hgot]
    simp
  · have hlength := congrArg List.length hgot
    simp only [List.length_map, List.length_append, List.length_cons] at hlength
    omega

end Paired

/-- No request was answered before it was sent, and every reply was read after its request was
answered. -/
structure Stamped (i : ι) (log : List (ι × α × β)) (peer : Peer α β) : Prop where
  sent : ∀ k a n, peer.sent[k]? = some (a, n) →
    n ≤ log.length ∧ (answered i (log.take n)).length ≤ k
  got : ∀ k b n, peer.got[k]? = some (b, n) →
    n ≤ log.length ∧ k < (answered i (log.take n)).length

theorem stamped_start (i : ι) : Stamped i [] ({} : Peer α β) where
  sent k a n h := by simp at h
  got k b n h := by simp at h

theorem Stamped.append {i : ι} {log : List (ι × α × β)} {peer : Peer α β}
    (h : Stamped i log peer) (more : List (ι × α × β)) {peer' : Peer α β}
    (hsent : peer'.sent = peer.sent) (hgot : peer'.got = peer.got) :
    Stamped i (log ++ more) peer' := by
  refine ⟨fun k a n hk => ?_, fun k b n hk => ?_⟩
  · rw [hsent] at hk
    obtain ⟨hn, hle⟩ := h.sent k a n hk
    rw [List.take_append_of_le_length hn, List.length_append]
    exact ⟨by omega, hle⟩
  · rw [hgot] at hk
    obtain ⟨hn, hlt⟩ := h.got k b n hk
    rw [List.take_append_of_le_length hn, List.length_append]
    exact ⟨by omega, hlt⟩

theorem Stamped.same {i : ι} {log : List (ι × α × β)} {peer peer' : Peer α β}
    (h : Stamped i log peer) (hsent : peer'.sent = peer.sent) (hgot : peer'.got = peer.got) :
    Stamped i log peer' := by
  have hmore := h.append [] hsent hgot
  rwa [List.append_nil] at hmore

theorem getElem?_concat_some {γ : Type} {xs : List γ} {x y : γ} {k : Nat}
    (h : (xs ++ [x])[k]? = some y) : xs[k]? = some y ∨ k = xs.length ∧ y = x := by
  rcases Nat.lt_trichotomy k xs.length with hlt | rfl | hgt
  · rw [List.getElem?_append_left hlt] at h
    exact .inl h
  · rw [List.getElem?_concat_length, Option.some.injEq] at h
    exact .inr ⟨rfl, h.symm⟩
  · rw [List.getElem?_eq_none (by simp; omega)] at h
    cases h

theorem Stamped.send {i : ι} {log : List (ι × α × β)} {peer : Peer α β}
    (h : Stamped i log peer) (hle : (answered i log).length ≤ peer.sent.length) (a : α)
    (up : Pipe) :
    Stamped i log { peer with sent := peer.sent ++ [(a, log.length)], up := up } := by
  refine ⟨fun k a' n hk => ?_, h.got⟩
  rcases getElem?_concat_some hk with hold | ⟨rfl, hnew⟩
  · exact h.sent k a' n hold
  · cases hnew
    rw [List.take_length]
    exact ⟨Nat.le_refl _, hle⟩

theorem Stamped.read {i : ι} {log : List (ι × α × β)} {peer : Peer α β}
    (h : Stamped i log peer) (hlt : peer.got.length < (answered i log).length) (b : β)
    (down : Pipe) :
    Stamped i log { peer with down := down, got := peer.got ++ [(b, log.length)] } := by
  refine ⟨h.sent, fun k b' n hk => ?_⟩
  rcases getElem?_concat_some hk with hold | ⟨rfl, hnew⟩
  · exact h.got k b' n hold
  · cases hnew
    rw [List.take_length]
    exact ⟨Nat.le_refl _, hlt⟩

/-- A peer in step with the log. -/
structure InStep (P : Protocol σ α β) (w : World ι σ α β) (i : ι) : Prop where
  paired : Paired P (answered i w.log) (w.peers i)
  stamped : Stamped i w.log (w.peers i)

theorem Paired.length_le {entries : List (α × β)} {peer : Peer α β}
    (h : Paired P entries peer) : entries.length ≤ peer.sent.length := by
  obtain ⟨waiting, -, hsent, -⟩ := h.queues
  have hlength := congrArg List.length hsent
  simp only [List.length_map, List.length_append] at hlength
  omega

variable {w w' : World ι σ α β}

theorem inStep_withPeer (h : ∀ i, InStep P w i) {i : ι} {peer : Peer α β}
    (hpaired : Paired P (answered i w.log) peer) (hstamped : Stamped i w.log peer) (j : ι) :
    InStep P (w.withPeer i peer) j := by
  rcases eq_or_ne j i with rfl | hne
  · refine ⟨?_, ?_⟩
    · simpa only [World.withPeer, Function.update_self] using hpaired
    · simpa only [World.withPeer, Function.update_self] using hstamped
  · refine ⟨?_, ?_⟩
    · simpa only [World.withPeer, Function.update_of_ne hne] using (h j).paired
    · simpa only [World.withPeer, Function.update_of_ne hne] using (h j).stamped

theorem Step.inStep (hframed : P.Framed) (hstep : Step P moves w w')
    (h : ∀ i, InStep P w i) (j : ι) : InStep P w' j := by
  cases hstep with
  | send i a hsends =>
      exact inStep_withPeer h ((h i).paired.send hsends _)
        ((h i).stamped.send (h i).paired.length_le a _) j
  | arriveUp i count =>
      exact inStep_withPeer h ((h i).paired.arriveUp count) ((h i).stamped.same rfl rfl) j
  | arriveDown i count =>
      exact inStep_withPeer h ((h i).paired.arriveDown count) ((h i).stamped.same rfl rfl) j
  | read i hasked hread =>
      obtain ⟨hpaired, hlt⟩ := (h i).paired.read hframed hasked hread w.log.length
      exact inStep_withPeer h hpaired ((h i).stamped.read hlt _ _) j
  | move hmoves => exact ⟨(h j).paired, (h j).stamped⟩
  | @answer i a b rest s hread hserves =>
      have hlog : (w.answer P i a b rest s).log = w.log ++ [(i, a, b)] := rfl
      rcases eq_or_ne j i with rfl | hne
      · have hpeer := w.peers_answer P j a b rest s
        refine ⟨?_, ?_⟩
        · rw [hlog, hpeer, answered_append, answered_self]
          exact (h j).paired.answer hframed hread hserves
        · rw [hlog, hpeer]
          exact (h j).stamped.append _ rfl rfl
      · have hpeer : (w.answer P i a b rest s).peers j = w.peers j :=
          Function.update_of_ne hne _ _
        refine ⟨?_, ?_⟩
        · rw [hlog, hpeer, answered_append, answered_ne hne.symm, List.append_nil]
          exact (h j).paired
        · rw [hlog, hpeer]
          exact (h j).stamped.append _ rfl rfl

/-- In every run the log is an execution of the server, and every peer is in step with it. -/
theorem Reachable.inStep (hframed : P.Framed) {start : σ} (h : Reachable P moves start w) :
    Executes P moves start w.log w.server ∧ ∀ i, InStep P w i := by
  induction h with
  | refl => exact ⟨.nil, fun i => ⟨paired_start P, stamped_start i⟩⟩
  | tail _ hstep ih =>
      refine ⟨?_, hstep.inStep hframed ih.2⟩
      cases hstep with
      | answer i hread hserves => exact ih.1.serve i hserves
      | move hmoves => exact ih.1.move hmoves
      | _ => exact ih.1

/-- The request with number `k` of a peer took effect at place `p` of the log, at one moment
after it was sent and before its reply was read. -/
structure TookEffect (P : Protocol σ α β) (moves : σ → σ → Prop) (start : σ)
    (w : World ι σ α β) (i : ι) (k p : Nat) (a : α) (b : β) (before after : σ) : Prop where
  entry : w.log[p]? = some (i, a, b)
  number : (answered i (w.log.take p)).length = k
  sent : ∃ stamp, (w.peers i).sent[k]? = some (a, stamp) ∧ stamp ≤ p
  got : ∀ stamp b', (w.peers i).got[k]? = some (b', stamp) → b' = b ∧ p < stamp
  executes : Executes P moves start (w.log.take p) before
  serves : P.serves before a b after
  executes' : Executes P moves start (w.log.take (p + 1)) after

theorem Reachable.tookEffect (hframed : P.Framed) {start : σ} (h : Reachable P moves start w)
    {i : ι} {k n : Nat} {b : β} (hgot : (w.peers i).got[k]? = some (b, n)) :
    ∃ p a before after, TookEffect P moves start w i k p a b before after := by
  obtain ⟨hexecutes, hall⟩ := h.inStep hframed
  obtain ⟨hpaired, hstamped⟩ := hall i
  obtain ⟨hn, hlater⟩ := hstamped.got k b n hgot
  have htotal : k < (answered i w.log).length := by
    have hsplit := congrArg List.length (answered_append i (w.log.take n) (w.log.drop n))
    rw [List.take_append_drop, List.length_append] at hsplit
    omega
  obtain ⟨stamp, hsent⟩ := hpaired.asked (List.getElem?_eq_getElem htotal)
  obtain ⟨hstamp, hearlier⟩ := hstamped.sent k _ stamp hsent
  obtain ⟨p, a, b', hfrom, hto, hentry, hnumber⟩ := answered_between i hn hearlier hlater
  have hfound := getElem?_answered hentry
  rw [hnumber] at hfound
  obtain ⟨before, after, hbefore, hserves, -⟩ := hexecutes.at hentry
  have hafter : Executes P moves start (w.log.take (p + 1)) after := by
    obtain ⟨hlt, hget⟩ := List.getElem?_eq_some_iff.mp hentry
    rw [← List.take_append_getElem hlt, hget]
    exact hbefore.serve i hserves
  have hreply : b' = b := by
    obtain ⟨-, unread, -, -, hqueue, -⟩ := hpaired.queues
    have hk : k < (w.peers i).got.length := (List.getElem?_eq_some_iff.mp hgot).1
    have hboth := congrArg (·[k]?) hqueue
    simp only [List.getElem?_map, hfound, Option.map_some] at hboth
    rw [List.getElem?_append_left (by rwa [List.length_map]), List.getElem?_map, hgot] at hboth
    exact Option.some.inj hboth
  subst hreply
  have hrequest : (answered i w.log)[k].1 = a := by
    rw [List.getElem?_eq_getElem htotal, Option.some.injEq] at hfound
    rw [hfound]
  refine ⟨p, a, before, after, hentry, hnumber, ⟨stamp, hrequest ▸ hsent, hfrom⟩, ?_, hbefore,
    hserves, hafter⟩
  intro stamp' c hc
  rw [hgot, Option.some.injEq, Prod.mk.injEq] at hc
  obtain ⟨rfl, rfl⟩ := hc
  exact ⟨rfl, hto⟩

end Runs

end PriorityFabric.Lib.Exchanges
