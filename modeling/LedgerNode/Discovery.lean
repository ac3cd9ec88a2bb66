import LedgerNode.Network

/-!
Discovery: a node asks the peers it knows for their status, then the active ones they mention, and so
on.  Answers may come in any order; every peer is asked once.
-/
namespace LedgerNode

/-- A status request on its way, and when its answer is due. -/
structure Query where
  peer : PeerAddress
  due : Nat
  deriving DecidableEq

structure Discovery where
  /-- The address of the node itself, which it neither asks nor lists. -/
  self : Option PeerAddress
  known : Peers
  waiting : List Query
  asked : List PeerAddress
  /-- Zero for a peer that did not answer. -/
  heights : SortedMap PeerAddress UInt64
  /-- Nodes that were mentioned and not known before. -/
  found : Peers
  deriving DecidableEq

namespace Discovery

variable (delay : PeerAddress → Nat)

/-- Asks a peer at a time, unless it was asked before. -/
def ask (now : Nat) (d : Discovery) (a : PeerAddress) : Discovery :=
  if d.asked.contains a then d
  else { d with asked := a :: d.asked, waiting := d.waiting ++ [⟨a, now + delay a⟩] }

/-- Asks all known peers. -/
def start (self : Option PeerAddress) (known : Peers) : Discovery :=
  known.keys.foldl (ask delay 0) ⟨self, known, [], [], .empty, .empty⟩

/-- Is neither the node itself nor known to it. -/
def isNew (d : Discovery) (a : PeerAddress) : Bool := d.self != some a && !d.known.contains a

/-- Lists a node; one that was listed before is active if any mention of it says so. -/
def list (found : Peers) (a : PeerAddress) (info : PeerInfo) : Peers :=
  match found.get? a with
  | none => found.insert a info
  | some before => found.insert a { before with isActive := before.isActive || info.isActive }

/-- A peer mentions a node. -/
def mention (now : Nat) (d : Discovery) (a : PeerAddress) (info : PeerInfo) : Discovery :=
  if d.isNew a then
    let d := if info.isActive then d.ask delay now a else d
    { d with found := list d.found a info }
  else d

/-- The answer to a request has come. -/
def receive (d : Discovery) (q : Query) : Except PeerError PeerReport → Discovery
  | .error _ =>
    { d with waiting := d.waiting.erase q, heights := d.heights.insert q.peer 0 }
  | .ok r =>
    r.known.entries.foldl (fun d e => d.mention delay q.due e.1 e.2)
      { d with waiting := d.waiting.erase q, heights := d.heights.insert q.peer r.height }

/-- The request whose answer comes first; of those due together, the one made first. -/
def first? : List Query → Option Query
  | [] => none
  | q :: rest =>
    match first? rest with
    | none => some q
    | some r => if r.due < q.due then some r else some q

/-- Takes answers in the order they come, at most `limit` of them. -/
def run (answers : PeerAddress → Except PeerError PeerReport) : (limit : Nat) → Discovery → Discovery
  | 0, d => d
  | limit + 1, d =>
    match first? d.waiting with
    | none => d
    | some q => run answers limit (d.receive delay q (answers q.peer))

/-- Asks around in a network, starting from the known peers. -/
def explore (net : Network) (self : Option PeerAddress) (known : Peers) : Discovery :=
  run net.delay net.report (known.size + net.mentions) (start net.delay self known)

theorem first?_mem {qs : List Query} {q : Query} (h : first? qs = some q) : q ∈ qs := by
  induction qs generalizing q with
  | nil => simp [first?] at h
  | cons p rest ih =>
    unfold first? at h
    cases hr : first? rest with
    | none =>
      rw [hr] at h
      simp_all
    | some r =>
      rw [hr] at h
      simp only at h
      split at h
      · cases h; exact List.mem_cons_of_mem _ (ih hr)
      · cases h; exact List.mem_cons_self

end Discovery
end LedgerNode
