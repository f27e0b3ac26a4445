import Mathlib.Tactic

/-!
# Replies that carry the key of their session

A server gives every session a key, stamps each request with the key of the
session it was received on, and stamps the replies to a request with the key of
the request.  A reply is written to whatever session has its key.

The history of such a server consists of the keys, the requests received, the
replies produced and the replies written.  `Correlates` relates it to the
requests and replies under way.  As long as the keys are distinct, a reply is
written to the session its request came from, and to nobody when that session
is gone.
-/

namespace GameServer
namespace Lib

/-- What has happened so far.  Sessions are numbered in the order in which they
were opened. -/
structure ReplyHistory (κ ρ σ : Type*) where
  keys : List κ
  received : List (Nat × ρ)
  produced : List (ρ × σ)
  written : List (Nat × σ)

namespace ReplyHistory

variable {κ ρ σ : Type*}

/-- Nothing has happened. -/
def empty : ReplyHistory κ ρ σ := ⟨[], [], [], []⟩

/-- A session is opened. -/
def connect (history : ReplyHistory κ ρ σ) (key : κ) : ReplyHistory κ ρ σ :=
  { history with keys := history.keys ++ [key] }

/-- Requests are received on a session. -/
def receive (history : ReplyHistory κ ρ σ) (session : Nat)
    (requests : List ρ) : ReplyHistory κ ρ σ :=
  { history with received := history.received ++ requests.map (session, ·) }

/-- Replies to a request are produced. -/
def produce (history : ReplyHistory κ ρ σ) (request : ρ) (replies : List σ) :
    ReplyHistory κ ρ σ :=
  { history with produced := history.produced ++ replies.map (request, ·) }

/-- A reply is written to a session. -/
def write (history : ReplyHistory κ ρ σ) (session : Nat) (reply : σ) :
    ReplyHistory κ ρ σ :=
  { history with written := history.written ++ [(session, reply)] }

/-- The reply answers a request that was received on the session. -/
def Answers (history : ReplyHistory κ ρ σ) (session : Nat) (reply : σ) :
    Prop :=
  ∃ request, (session, request) ∈ history.received ∧
    (request, reply) ∈ history.produced

/-- The history, with the requests and replies that are under way. -/
structure Correlates (requestKey : ρ → κ) (replyKey : σ → κ)
    (history : ReplyHistory κ ρ σ) (requests : List ρ) (replies : List σ) :
    Prop where
  distinct : history.keys.Nodup
  received : ∀ session request, (session, request) ∈ history.received →
    history.keys[session]? = some (requestKey request)
  requests : ∀ request ∈ requests, ∃ session,
    (session, request) ∈ history.received
  produced : ∀ request reply, (request, reply) ∈ history.produced →
    replyKey reply = requestKey request
  replies : ∀ reply ∈ replies, ∃ session, history.Answers session reply
  written : ∀ session reply, (session, reply) ∈ history.written →
    history.Answers session reply

section Correlates

variable {requestKey : ρ → κ} {replyKey : σ → κ} {history : ReplyHistory κ ρ σ}
  {requests requests' : List ρ} {replies replies' : List σ} {reply : σ}
  {session : Nat}

theorem correlates_empty : Correlates requestKey replyKey (empty : ReplyHistory κ ρ σ) [] [] where
  distinct := List.nodup_nil
  received := fun _ _ h => nomatch h
  requests := fun _ h => nomatch h
  produced := fun _ _ h => nomatch h
  replies := fun _ h => nomatch h
  written := fun _ _ h => nomatch h

/-- Requests and replies are moved around or dropped. -/
theorem Correlates.subset (h : Correlates requestKey replyKey history requests
      replies) (hrequests : requests' ⊆ requests)
    (hreplies : replies' ⊆ replies) :
    Correlates requestKey replyKey history requests' replies' :=
  { h with
    requests := fun request hmem => h.requests request (hrequests hmem)
    replies := fun reply hmem => h.replies reply (hreplies hmem) }

theorem Correlates.connect (h : Correlates requestKey replyKey history requests
      replies) {key : κ} (hkey : key ∉ history.keys) :
    Correlates requestKey replyKey (history.connect key) requests replies :=
  { h with
    distinct := by
      refine List.Nodup.append h.distinct (List.nodup_singleton key) ?_
      exact List.disjoint_singleton.mpr hkey
    received := by
      intro session request hmem
      have hold := h.received session request hmem
      exact (List.getElem?_append_left (List.getElem?_eq_some_iff.mp hold).1 ).trans hold }

/-- An answered request stays answered. -/
theorem Answers.receive (h : history.Answers session reply) (session' : Nat)
    (added : List ρ) : (history.receive session' added).Answers session reply :=
  let ⟨request, hreceived, hproduced⟩ := h
  ⟨request, List.mem_append_left _ hreceived, hproduced⟩

theorem Answers.produce (h : history.Answers session reply) (request : ρ)
    (added : List σ) : (history.produce request added).Answers session reply :=
  let ⟨request, hreceived, hproduced⟩ := h
  ⟨request, hreceived, List.mem_append_left _ hproduced⟩

/-- Requests that carry the key of their session are received. -/
theorem Correlates.receive (h : Correlates requestKey replyKey history requests
      replies) {key : κ} {added : List ρ}
    (hsession : history.keys[session]? = some key)
    (hadded : ∀ request ∈ added, requestKey request = key)
    (hrequests : requests' ⊆ requests ++ added) :
    Correlates requestKey replyKey (history.receive session added) requests' replies where
  distinct := h.distinct
  received := by
    intro session' request hmem
    rcases List.mem_append.mp hmem with hold | hnew
    · exact h.received session' request hold
    · obtain ⟨request, hin, heq⟩ := List.mem_map.mp hnew
      cases heq
      rw [hadded request hin]
      exact hsession
  requests := by
    intro request hmem
    rcases List.mem_append.mp (hrequests hmem) with hold | hnew
    · obtain ⟨session', hin⟩ := h.requests request hold
      exact ⟨session', List.mem_append_left _ hin⟩
    · exact ⟨session, List.mem_append_right _ (List.mem_map.mpr ⟨request, hnew, rfl⟩)⟩
  produced := h.produced
  replies := fun reply hmem =>
    let ⟨session', hanswers⟩ := h.replies reply hmem
    ⟨session', hanswers.receive session added⟩
  written := fun session' reply hmem =>
    (h.written session' reply hmem).receive session added

/-- Replies that carry the key of a request are produced for it. -/
theorem Correlates.produce (h : Correlates requestKey replyKey history requests
      replies) {request : ρ} {added : List σ} (hrequest : request ∈ requests)
    (hadded : ∀ reply ∈ added, replyKey reply = requestKey request)
    (hreplies : replies' ⊆ replies ++ added) :
    Correlates requestKey replyKey (history.produce request added) requests replies' where
  distinct := h.distinct
  received := h.received
  requests := h.requests
  produced := by
    intro request' reply hmem
    rcases List.mem_append.mp hmem with hold | hnew
    · exact h.produced request' reply hold
    · obtain ⟨reply, hin, heq⟩ := List.mem_map.mp hnew
      cases heq
      exact hadded reply hin
  replies := by
    intro reply hmem
    rcases List.mem_append.mp (hreplies hmem) with hold | hnew
    · obtain ⟨session, hanswers⟩ := h.replies reply hold
      exact ⟨session, hanswers.produce request added⟩
    · obtain ⟨session, hin⟩ := h.requests request hrequest
      exact ⟨session, request, hin, List.mem_append_right _ (List.mem_map.mpr ⟨reply, hnew, rfl⟩)⟩
  written := fun session reply hmem =>
    (h.written session reply hmem).produce request added

/-- The session a reply answers has its key. -/
theorem Correlates.keys_of_answers (h : Correlates requestKey replyKey history
      requests replies) (hanswers : history.Answers session reply) :
    history.keys[session]? = some (replyKey reply) := by
  obtain ⟨request, hreceived, hproduced⟩ := hanswers
  rw [h.produced request reply hproduced]
  exact h.received session request hreceived

/-- No two sessions have the same key. -/
theorem Correlates.eq_of_keys (h : Correlates requestKey replyKey history
      requests replies) {session' : Nat} {key : κ}
    (hsession : history.keys[session]? = some key)
    (hsession' : history.keys[session']? = some key) : session = session' := by
  obtain ⟨hlt, -⟩ := List.getElem?_eq_some_iff.mp hsession
  exact (List.getElem?_inj hlt h.distinct).mp (hsession.trans hsession'.symm)

/-- A reply under way is written to the session that has its key. -/
theorem Correlates.write (h : Correlates requestKey replyKey history requests
      replies) (hreply : reply ∈ replies)
    (hsession : history.keys[session]? = some (replyKey reply)) :
    Correlates requestKey replyKey (history.write session reply) requests
      replies :=
  { h with
    written := by
      intro session' reply' hmem
      rcases List.mem_append.mp hmem with hold | hnew
      · exact h.written session' reply' hold
      · cases List.mem_singleton.mp hnew
        obtain ⟨origin, hanswers⟩ := h.replies reply hreply
        rw [h.eq_of_keys hsession (h.keys_of_answers hanswers)]
        exact hanswers }

/-- A reply that was written to another session does not answer this one. -/
theorem Correlates.not_answers_of_ne (h : Correlates requestKey replyKey
      history requests replies) {session' : Nat}
    (hwritten : (session', reply) ∈ history.written) (hne : session' ≠ session) :
    ¬ history.Answers session reply :=
  fun hanswers => hne (h.eq_of_keys (h.keys_of_answers (h.written session' reply hwritten))
    (h.keys_of_answers hanswers))

end Correlates

end ReplyHistory

end Lib
end GameServer
