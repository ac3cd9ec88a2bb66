import Mathlib.Data.List.Perm.Subperm
import LedgerNode.Discovery
import LedgerNode.Proofs.SortedMap

/-!
Discovery in whatever order the answers come.  It ends, since there are only so many nodes that can be
mentioned.  Then it has asked the peers that it could reach, each of them once, and what it has found
out depends on the network alone.
-/
namespace LedgerNode

/-- The nodes that a peer would mention. -/
def Neighbour.mentioned (p : Neighbour) : List PeerAddress :=
  match p.report with
  | .ok r => r.known.keys
  | .error _ => []

namespace Network

/-- The nodes that a peer mentions in its answer, if it answers. -/
def mentionedBy (net : Network) (b : PeerAddress) : List (PeerAddress × PeerInfo) :=
  match net.report b with
  | .ok r => r.known.entries
  | .error _ => []

/-- The height that a peer reports, zero if it does not answer. -/
def heightAt (net : Network) (b : PeerAddress) : UInt64 :=
  match net.report b with
  | .ok r => r.height
  | .error _ => 0

/-- The nodes that anybody mentions, once for each time. -/
def everyMention (net : Network) : List PeerAddress := net.values.flatMap (·.mentioned)

theorem length_everyMention (net : Network) : net.everyMention.length = net.mentions := by
  have hfold : ∀ (ps : List Neighbour) (n : Nat),
      ps.foldl (fun n p => match p.report with
        | .ok r => n + r.known.size
        | .error _ => n) n = n + (ps.flatMap (·.mentioned)).length := by
    intro ps
    induction ps with
    | nil => simp
    | cons p ps ih =>
      intro n
      rw [List.foldl_cons, ih, List.flatMap_cons, List.length_append, Neighbour.mentioned]
      cases p.report with
      | error e => simp
      | ok r => simp [SortedMap.keys, SortedMap.size, Nat.add_assoc]
  have hall := hfold net.values 0
  rw [Nat.zero_add] at hall
  exact hall.symm

theorem mem_everyMention {net : Network} {b : PeerAddress} {e : PeerAddress × PeerInfo}
    (h : e ∈ net.mentionedBy b) : e.1 ∈ net.everyMention := by
  rw [mentionedBy, report] at h
  cases hget : net.get? b with
  | none => simp [hget] at h
  | some p =>
    have hp : p ∈ net.values :=
      List.mem_map.mpr ⟨(b, p), (net.get?_eq_some_iff).mp hget, rfl⟩
    cases hreport : p.report with
    | error fault => simp [hget, hreport, Except.mapError] at h
    | ok r =>
      have he : e ∈ r.known.entries := by simpa [hget, hreport, Except.mapError] using h
      refine List.mem_flatMap.mpr ⟨p, hp, ?_⟩
      rw [Neighbour.mentioned, hreport]
      exact List.mem_map_of_mem he

end Network

namespace Discovery

/-- The peers that a node can reach: those that it knows, and any other node that a reached peer calls
active. -/
inductive Reached (net : Network) (own : Option PeerAddress) (known : Peers) :
    PeerAddress → Prop where
  | known {a : PeerAddress} : a ∈ known → Reached net own known a
  | mentioned {a b : PeerAddress} {info : PeerInfo} : Reached net own known b →
      (a, info) ∈ net.mentionedBy b → info.isActive = true → own ≠ some a →
      Reached net own known a

/-- One of the answers that are waited for has come, whichever it is. -/
inductive Step (net : Network) : Discovery → PeerAddress → Discovery → Prop where
  | answer {d : Discovery} (q : Query) : q ∈ d.waiting →
      Step net d q.peer (d.receive net.delay q (net.report q.peer))

/-- Answers come one after the other. -/
inductive Steps (net : Network) : Discovery → List PeerAddress → Discovery → Prop where
  | nil {d : Discovery} : Steps net d [] d
  | cons {d e f : Discovery} {a : PeerAddress} {answered : List PeerAddress} : Step net d a e →
      Steps net e answered f → Steps net d (a :: answered) f

theorem isNew_iff (d : Discovery) (a : PeerAddress) :
    d.isNew a = true ↔ d.self ≠ some a ∧ a ∉ d.known := by
  simp [isNew, SortedMap.mem_iff, SortedMap.contains]

/-- The requests on their way are those without an answer, and nobody is asked twice. -/
structure Waits (answered : List PeerAddress) (d : Discovery) : Prop where
  nodup : d.asked.Nodup
  perm : (answered ++ d.waiting.map (·.peer)).Perm d.asked

/-- An answer is that to one of the requests. -/
theorem Waits.take {answered : List PeerAddress} {d : Discovery} (hd : Waits answered d) {q : Query}
    (hq : q ∈ d.waiting) (heights : SortedMap PeerAddress UInt64) :
    Waits (answered ++ [q.peer]) { d with waiting := d.waiting.erase q, heights } := by
  refine ⟨hd.nodup, ?_⟩
  have hsplit : (d.waiting.map (·.peer)).Perm (q.peer :: (d.waiting.erase q).map (·.peer)) :=
    (List.perm_cons_erase hq).map (·.peer)
  have happend := (hsplit.append_left answered).symm.trans hd.perm
  simpa using happend

theorem Waits.mem_asked {answered : List PeerAddress} {d : Discovery} (hd : Waits answered d)
    (a : PeerAddress) : a ∈ d.asked ↔ a ∈ answered ∨ ∃ q ∈ d.waiting, q.peer = a := by
  rw [← hd.perm.mem_iff, List.mem_append, List.mem_map]

/-- The peers `as` have been asked, as far as they had not been before, and nothing else has
happened. -/
structure Asks (d : Discovery) (as : List PeerAddress) (e : Discovery) : Prop where
  eq : ∃ asked waiting, e = { d with asked, waiting }
  mem_asked (a : PeerAddress) : a ∈ e.asked ↔ a ∈ d.asked ∨ a ∈ as
  waits {answered : List PeerAddress} : Waits answered d → Waits answered e

namespace Asks

variable {d e f : Discovery} {as bs : List PeerAddress}

theorem refl (d : Discovery) : Asks d [] d := ⟨⟨d.asked, d.waiting, rfl⟩, by simp, id⟩

theorem trans (h : Asks d as e) (h' : Asks e bs f) : Asks d (as ++ bs) f := by
  refine ⟨?_, fun a => ?_, fun hd => h'.waits (h.waits hd)⟩
  · obtain ⟨asked, waiting, rfl⟩ := h.eq
    exact h'.eq
  · rw [h'.mem_asked, h.mem_asked, List.mem_append, or_assoc]

theorem ask (delay : PeerAddress → Nat) (now : Nat) (d : Discovery) (b : PeerAddress) :
    Asks d [b] (d.ask delay now b) := by
  by_cases hb : b ∈ d.asked
  · rw [Discovery.ask, if_pos (by simpa using hb)]
    refine ⟨⟨d.asked, d.waiting, rfl⟩, fun a => ?_, id⟩
    simp only [List.mem_singleton]
    exact ⟨.inl, by rintro (h | rfl) <;> assumption⟩
  · rw [Discovery.ask, if_neg (by simpa using hb)]
    refine ⟨⟨_, _, rfl⟩, fun a => by simp [or_comm], fun {answered} hd => ?_⟩
    refine ⟨List.nodup_cons.mpr ⟨hb, hd.nodup⟩, ?_⟩
    have hlast : (answered ++ d.waiting.map (·.peer) ++ [b]).Perm (b :: d.asked) :=
      (List.perm_append_singleton b _).trans (hd.perm.cons b)
    simpa using hlast

theorem foldl (delay : PeerAddress → Nat) (now : Nat) (d : Discovery) (as : List PeerAddress) :
    Asks d as (as.foldl (Discovery.ask delay now) d) := by
  induction as generalizing d with
  | nil => exact .refl d
  | cons a as ih => exact (Asks.ask delay now d a).trans (ih _)

end Asks

section listing

def Mentioned (heard : List (PeerAddress × PeerInfo)) (a : PeerAddress) : Prop :=
  ∃ info, (a, info) ∈ heard

def CalledActive (heard : List (PeerAddress × PeerInfo)) (a : PeerAddress) : Prop :=
  ∃ info, (a, info) ∈ heard ∧ info.isActive = true

def ListsActive (found : Peers) (a : PeerAddress) : Prop :=
  ∃ info, found.get? a = some info ∧ info.isActive = true

variable {heard : List (PeerAddress × PeerInfo)} {a b : PeerAddress} {info : PeerInfo}

@[simp] theorem mentioned_append (heard' : List (PeerAddress × PeerInfo)) :
    Mentioned (heard ++ heard') a ↔ Mentioned heard a ∨ Mentioned heard' a := by
  simp only [Mentioned, List.mem_append, exists_or]

@[simp] theorem mentioned_singleton : Mentioned [(b, info)] a ↔ a = b := by
  simp [Mentioned]

@[simp] theorem calledActive_append (heard' : List (PeerAddress × PeerInfo)) :
    CalledActive (heard ++ heard') a ↔ CalledActive heard a ∨ CalledActive heard' a := by
  simp only [CalledActive, List.mem_append, or_and_right, exists_or]

@[simp] theorem calledActive_singleton :
    CalledActive [(b, info)] a ↔ a = b ∧ info.isActive = true := by
  simp only [CalledActive, List.mem_singleton, Prod.mk.injEq]
  exact ⟨fun ⟨_, ⟨hab, hinfo⟩, hactive⟩ => ⟨hab, hinfo ▸ hactive⟩,
    fun ⟨hab, hactive⟩ => ⟨_, ⟨hab, rfl⟩, hactive⟩⟩

theorem mem_list (found : Peers) (b : PeerAddress) (info : PeerInfo) :
    a ∈ list found b info ↔ a ∈ found ∨ a = b := by
  rw [list]
  split <;> rw [SortedMap.mem_insert, or_comm]

/-- A node that is listed as active stays so, and becomes so if it is mentioned as active. -/
theorem listsActive_list (found : Peers) (b : PeerAddress) (info : PeerInfo) :
    ListsActive (list found b info) a ↔ ListsActive found a ∨ a = b ∧ info.isActive = true := by
  rw [ListsActive, ListsActive, list]
  by_cases hab : a = b
  · subst hab
    cases hlisted : found.get? a with
    | none => simp
    | some before => simp
  · split <;> simp [hab]

end listing

section invariant

variable {net : Network} {own : Option PeerAddress} {known : Peers} {delay : PeerAddress → Nat}
  {now : Nat} {answered : List PeerAddress} {heard : List (PeerAddress × PeerInfo)} {d : Discovery}

/-- What a discovery makes of the answers that have come and of the mentions that it has heard. -/
structure Holds (net : Network) (own : Option PeerAddress) (known : Peers)
    (answered : List PeerAddress) (heard : List (PeerAddress × PeerInfo)) (d : Discovery) :
    Prop where
  self_eq : d.self = own
  known_eq : d.known = known
  waits : Waits answered d
  mem_asked (a : PeerAddress) : a ∈ d.asked ↔ a ∈ known ∨ own ≠ some a ∧ CalledActive heard a
  heights (a : PeerAddress) :
    d.heights.get? a = if a ∈ answered then some (net.heightAt a) else none
  mem_found (a : PeerAddress) :
    a ∈ d.found ↔ (own ≠ some a ∧ a ∉ known) ∧ Mentioned heard a
  listsActive (a : PeerAddress) :
    ListsActive d.found a ↔ (own ≠ some a ∧ a ∉ known) ∧ CalledActive heard a

/-- A peer that has mentioned one more node. -/
theorem Holds.mention (hd : Holds net own known answered heard d) (b : PeerAddress)
    (info : PeerInfo) :
    Holds net own known answered (heard ++ [(b, info)]) (d.mention delay now b info) := by
  have hnew : d.isNew b = true ↔ own ≠ some b ∧ b ∉ known := by
    rw [isNew_iff, hd.self_eq, hd.known_eq]
  rw [Discovery.mention]
  by_cases hb : own ≠ some b ∧ b ∉ known
  · rw [if_pos (hnew.mpr hb)]
    have hasks : Asks d (if info.isActive then [b] else [])
        (if info.isActive then d.ask delay now b else d) := by
      cases info.isActive with
      | true => exact .ask delay now d b
      | false => exact .refl d
    generalize (if info.isActive then d.ask delay now b else d) = e at hasks
    obtain ⟨⟨asked, waiting, rfl⟩, hasked, hwaits⟩ := hasks
    refine ⟨hd.self_eq, hd.known_eq, ⟨(hwaits hd.waits).nodup, (hwaits hd.waits).perm⟩,
      fun a => ?_, hd.heights, fun a => ?_, fun a => ?_⟩
    · have hmem : a ∈ (if info.isActive then [b] else []) ↔ a = b ∧ info.isActive = true := by
        cases info.isActive <;> simp
      rw [hasked, hd.mem_asked, hmem, calledActive_append, calledActive_singleton]
      grind
    · rw [mem_list, hd.mem_found, mentioned_append, mentioned_singleton]
      grind
    · rw [listsActive_list, hd.listsActive, calledActive_append, calledActive_singleton]
      grind
  · -- the node itself and whatever it knows already: asking and listing leave both out
    rw [if_neg (by rwa [hnew])]
    refine ⟨hd.self_eq, hd.known_eq, hd.waits, fun a => ?_, hd.heights, fun a => ?_, fun a => ?_⟩
    · rw [hd.mem_asked, calledActive_append, calledActive_singleton]
      grind
    · rw [hd.mem_found, mentioned_append, mentioned_singleton]
      grind
    · rw [hd.listsActive, calledActive_append, calledActive_singleton]
      grind

theorem Holds.foldl_mention (hd : Holds net own known answered heard d)
    (es : List (PeerAddress × PeerInfo)) :
    Holds net own known answered (heard ++ es)
      (es.foldl (fun d e => d.mention delay now e.1 e.2) d) := by
  induction es generalizing heard d with
  | nil => simpa using hd
  | cons e es ih => simpa using ih (hd.mention e.1 e.2)

theorem Holds.receive (hd : Holds net own known answered (answered.flatMap net.mentionedBy) d)
    {q : Query} (hq : q ∈ d.waiting) :
    Holds net own known (answered ++ [q.peer]) ((answered ++ [q.peer]).flatMap net.mentionedBy)
      (d.receive net.delay q (net.report q.peer)) := by
  have htaken : Holds net own known (answered ++ [q.peer]) (answered.flatMap net.mentionedBy)
      { d with
        waiting := d.waiting.erase q, heights := d.heights.insert q.peer (net.heightAt q.peer) } := by
    refine ⟨hd.self_eq, hd.known_eq, hd.waits.take hq _, hd.mem_asked, fun a => ?_, hd.mem_found,
      hd.listsActive⟩
    rw [SortedMap.get?_insert, hd.heights]
    by_cases ha : a = q.peer <;> simp [ha]
  rw [List.flatMap_append, List.flatMap_singleton, Network.mentionedBy]
  rw [Network.heightAt] at htaken
  cases hreport : net.report q.peer with
  | error e => simpa [Discovery.receive, hreport] using htaken
  | ok r =>
    rw [hreport] at htaken
    exact htaken.foldl_mention r.known.entries

theorem holds_start (net : Network) (own : Option PeerAddress) (known : Peers) :
    Holds net own known [] [] (start net.delay own known) := by
  have hasks := Asks.foldl net.delay 0 ⟨own, known, [], [], .empty, .empty⟩ known.keys
  rw [start]
  generalize known.keys.foldl (ask net.delay 0) ⟨own, known, [], [], .empty, .empty⟩ = d at hasks
  obtain ⟨⟨asked, waiting, rfl⟩, hasked, hwaits⟩ := hasks
  refine ⟨rfl, rfl, hwaits ⟨.nil, .refl _⟩, fun a => ?_, fun a => rfl, fun a => ?_, fun a => ?_⟩
  · rw [hasked, SortedMap.mem_keys]
    simp [CalledActive]
  · simp [SortedMap.mem_iff, Mentioned]
  · simp [ListsActive, CalledActive]

/-- If the answers came from peers that can be reached, so can everybody who was asked since. -/
theorem Holds.reached_of_mem_asked
    (hd : Holds net own known answered (answered.flatMap net.mentionedBy) d)
    (hreached : ∀ b ∈ answered, Reached net own known b) {a : PeerAddress} (ha : a ∈ d.asked) :
    Reached net own known a := by
  rcases (hd.mem_asked a).mp ha with hknown | ⟨hown, info, hmem, hactive⟩
  · exact .known hknown
  · obtain ⟨b, hb, hmentioned⟩ := List.mem_flatMap.mp hmem
    exact .mentioned (hreached b hb) hmentioned hactive hown

theorem Holds.steps {e : Discovery} {answered' : List PeerAddress}
    (hd : Holds net own known answered (answered.flatMap net.mentionedBy) d)
    (hreached : ∀ b ∈ answered, Reached net own known b) (h : Steps net d answered' e) :
    Holds net own known (answered ++ answered')
        ((answered ++ answered').flatMap net.mentionedBy) e ∧
      ∀ b ∈ answered ++ answered', Reached net own known b := by
  induction h generalizing answered with
  | nil => simpa using ⟨hd, hreached⟩
  | cons hstep _ ih =>
    cases hstep with
    | answer q hq =>
      have hpeer : Reached net own known q.peer :=
        hd.reached_of_mem_asked hreached ((hd.waits.mem_asked _).mpr (.inr ⟨q, hq, rfl⟩))
      have hreached' : ∀ b ∈ answered ++ [q.peer], Reached net own known b := by
        intro b hb
        rcases List.mem_append.mp hb with hb | hb
        · exact hreached b hb
        · rwa [List.mem_singleton.mp hb]
      simpa using ih (hd.receive hq) hreached'

theorem holds_of_steps {answered : List PeerAddress} {e : Discovery}
    (h : Steps net (start net.delay own known) answered e) :
    Holds net own known answered (answered.flatMap net.mentionedBy) e ∧
      ∀ b ∈ answered, Reached net own known b := by
  simpa using (holds_start net own known).steps (by simp) h

/-- Only so many nodes can be asked: those that are known, and those that anybody mentions. -/
theorem length_of_steps {answered : List PeerAddress} {e : Discovery}
    (h : Steps net (start net.delay own known) answered e) :
    answered.length + e.waiting.length ≤ known.size + net.mentions := by
  obtain ⟨hd, -⟩ := holds_of_steps h
  have hsubset : e.asked ⊆ known.keys ++ net.everyMention := by
    intro a ha
    rcases (hd.mem_asked a).mp ha with hknown | ⟨-, info, hmem, -⟩
    · exact List.mem_append_left _ ((known.mem_keys a).mpr hknown)
    · obtain ⟨b, -, hmentioned⟩ := List.mem_flatMap.mp hmem
      exact List.mem_append_right _ (Network.mem_everyMention hmentioned)
  have hlength := (List.subperm_of_subset hd.waits.nodup hsubset).length_le
  rw [← hd.waits.perm.length_eq, List.length_append, List.length_append, List.length_map,
    Network.length_everyMention, SortedMap.keys, List.length_map] at hlength
  exact hlength

end invariant

theorem first?_eq_none {qs : List Query} (h : first? qs = none) : qs = [] := by
  cases qs with
  | nil => rfl
  | cons q rest =>
    rw [first?] at h
    split at h
    · cases h
    · split at h <;> cases h

/-- Taking the answers in the order they come is one of the orders in which they can come. -/
theorem steps_run (net : Network) (limit : Nat) (d : Discovery) :
    ∃ answered, Steps net d answered (run net.delay net.report limit d) ∧
      ((run net.delay net.report limit d).waiting = [] ∨ answered.length = limit) := by
  induction limit generalizing d with
  | zero => exact ⟨[], .nil, .inr rfl⟩
  | succ limit ih =>
    rw [run]
    cases hfirst : first? d.waiting with
    | none => exact ⟨[], .nil, .inl (first?_eq_none hfirst)⟩
    | some q =>
      obtain ⟨answered, hsteps, hend⟩ := ih (d.receive net.delay q (net.report q.peer))
      refine ⟨q.peer :: answered, .cons (.answer q (first?_mem hfirst)) hsteps, ?_⟩
      exact hend.imp_right fun hlength => by rw [List.length_cons, hlength]

/-- What a discovery has found out in the end. -/
structure Complete (net : Network) (own : Option PeerAddress) (known : Peers)
    (answered : List PeerAddress) (d : Discovery) : Prop where
  once : answered.Nodup
  perm : answered.Perm d.asked
  mem_answered (a : PeerAddress) : a ∈ answered ↔ Reached net own known a
  heights (a : PeerAddress) (height : UInt64) :
    d.heights.get? a = some height ↔ Reached net own known a ∧ height = net.heightAt a
  mem_found (a : PeerAddress) : a ∈ d.found ↔ (own ≠ some a ∧ a ∉ known) ∧
    ∃ b, Reached net own known b ∧ Mentioned (net.mentionedBy b) a
  isActive_iff (a : PeerAddress) (info : PeerInfo) : d.found.get? a = some info →
    (info.isActive = true ↔
      ∃ b, Reached net own known b ∧ CalledActive (net.mentionedBy b) a)

/-- Once no answer is waited for, all peers that can be reached have been asked. -/
theorem complete_of_steps {net : Network} {own : Option PeerAddress} {known : Peers}
    {answered : List PeerAddress} {d : Discovery}
    (h : Steps net (start net.delay own known) answered d) (hend : d.waiting = []) :
    Complete net own known answered d := by
  obtain ⟨hd, hreached⟩ := holds_of_steps h
  have hperm : answered.Perm d.asked := by simpa [hend] using hd.waits.perm
  have hmem : ∀ a, a ∈ answered ↔ Reached net own known a := by
    refine fun a => ⟨hreached a, fun ha => ?_⟩
    induction ha with
    | known ha => exact hperm.mem_iff.mpr ((hd.mem_asked _).mpr (.inl ha))
    | mentioned _ hmentioned hactive hown ih =>
      refine hperm.mem_iff.mpr ((hd.mem_asked _).mpr (.inr ⟨hown, _, ?_, hactive⟩))
      exact List.mem_flatMap.mpr ⟨_, ih, hmentioned⟩
  have hmentioned : ∀ a, Mentioned (answered.flatMap net.mentionedBy) a ↔
      ∃ b, Reached net own known b ∧ Mentioned (net.mentionedBy b) a := by
    intro a
    simp only [Mentioned, List.mem_flatMap, ← hmem]
    grind
  have hcalled : ∀ a, CalledActive (answered.flatMap net.mentionedBy) a ↔
      ∃ b, Reached net own known b ∧ CalledActive (net.mentionedBy b) a := by
    intro a
    simp only [CalledActive, List.mem_flatMap, ← hmem]
    grind
  refine ⟨hperm.nodup_iff.mpr hd.waits.nodup, hperm, hmem, fun a height => ?_, fun a => ?_,
    fun a info hinfo => ?_⟩
  · rw [hd.heights, ← hmem]
    split <;> simp_all [eq_comm]
  · rw [hd.mem_found, hmentioned]
  · have hnew := ((hd.mem_found a).mp (by rw [SortedMap.mem_iff, hinfo]; rfl)).1
    have hactive : info.isActive = true ↔ ListsActive d.found a := by
      simp [ListsActive, hinfo]
    rw [hactive, hd.listsActive, hcalled, and_iff_right hnew]

/-- Two discoveries of the same heights and the same nodes, as active or not.  What else is said of a
node may differ: it is taken from the first answer that mentions it. -/
def Agrees (d e : Discovery) : Prop :=
  d.heights = e.heights ∧
    ∀ a, (d.found.get? a).map (·.isActive) = (e.found.get? a).map (·.isActive)

theorem Complete.agrees {net : Network} {own : Option PeerAddress} {known : Peers}
    {answered answered' : List PeerAddress} {d e : Discovery}
    (hd : Complete net own known answered d) (he : Complete net own known answered' e) :
    d.Agrees e := by
  refine ⟨SortedMap.ext fun a => Option.ext fun height => ?_, fun a => ?_⟩
  · rw [hd.heights, he.heights]
  · have hlisted : a ∈ d.found ↔ a ∈ e.found := by rw [hd.mem_found, he.mem_found]
    rw [SortedMap.mem_iff, SortedMap.mem_iff] at hlisted
    cases hinfo : d.found.get? a with
    | none => simp_all
    | some info =>
      obtain ⟨info', hinfo'⟩ := Option.isSome_iff_exists.mp (hlisted.mp (by rw [hinfo]; rfl))
      have hactive : info.isActive = info'.isActive := by
        rw [Bool.eq_iff_iff, hd.isActive_iff a info hinfo, he.isActive_iff a info' hinfo']
      rw [hinfo', Option.map_some, Option.map_some, hactive]

/-- Whichever order the answers come in, a discovery ends: there are only so many answers to come, and
one can come as long as any is waited for.  In the end the node has asked the peers that it can reach,
each once; it knows the height of each, which is zero where the answer failed; and of the nodes that
were new to it, it lists whom any of these peers mentions, as active if any of them says so.  The order
of the delays is one of these orders, and all of them agree. -/
theorem explore_complete (net : Network) (own : Option PeerAddress) (known : Peers) :
    (∀ answered d, Steps net (start net.delay own known) answered d →
      answered.length + d.waiting.length ≤ known.size + net.mentions ∧
      (d.waiting ≠ [] → ∃ a e, Step net d a e) ∧
      (d.waiting = [] → Complete net own known answered d ∧ d.Agrees (explore net own known))) ∧
    ∃ answered, Steps net (start net.delay own known) answered (explore net own known) ∧
      (explore net own known).waiting = [] := by
  have hexplore : ∃ answered, Steps net (start net.delay own known) answered
      (explore net own known) ∧ (explore net own known).waiting = [] := by
    obtain ⟨answered, hsteps, hend⟩ :=
      steps_run net (known.size + net.mentions) (start net.delay own known)
    refine ⟨answered, hsteps, ?_⟩
    rcases hend with hend | hlength
    · exact hend
    · have hbound := length_of_steps hsteps
      exact List.length_eq_zero_iff.mp (by rw [explore]; omega)
  refine ⟨fun answered d h => ⟨length_of_steps h, fun hne => ?_, fun hend => ?_⟩, hexplore⟩
  · obtain ⟨q, hq⟩ := List.exists_mem_of_ne_nil _ hne
    exact ⟨q.peer, _, .answer q hq⟩
  · obtain ⟨answered', hsteps, hend'⟩ := hexplore
    have hcomplete := complete_of_steps h hend
    exact ⟨hcomplete, hcomplete.agrees (complete_of_steps hsteps hend')⟩

def sampleHome : PeerAddress := ⟨"10.0.0.1", 8080⟩
def samplePeer : PeerAddress := ⟨"10.0.0.1", 8081⟩
def sampleRumour : PeerAddress := ⟨"10.0.0.1", 8082⟩

def sampleInfo : PeerInfo := ⟨"peer", false, true⟩

/-- One peer, which mentions the node that asks it and another that is gone. -/
def sampleNetwork : Network :=
  SortedMap.empty.insert samplePeer
    (.ofRecords [] ((SortedMap.empty.insert sampleHome sampleInfo).insert sampleRumour sampleInfo))

/-- A node that is gone has been asked and has height zero, and the node has not asked itself. -/
theorem explore_complete_rumour :
    let d := explore sampleNetwork (some sampleHome) (SortedMap.empty.insert samplePeer sampleInfo)
    d.waiting = [] ∧ d.heights.get? sampleRumour = some 0 ∧ sampleRumour ∈ d.found ∧
      sampleHome ∉ d.found := by
  intro d
  obtain ⟨hall, answered, hsteps, hend⟩ := explore_complete sampleNetwork (some sampleHome)
    (SortedMap.empty.insert samplePeer sampleInfo)
  obtain ⟨hcomplete, -⟩ := (hall answered d hsteps).2.2 hend
  have hpeer : Reached sampleNetwork (some sampleHome)
      (SortedMap.empty.insert samplePeer sampleInfo) samplePeer := .known (by simp [SortedMap.mem_iff])
  have hmention : (sampleRumour, sampleInfo) ∈ sampleNetwork.mentionedBy samplePeer := by
    simp only [Network.mentionedBy, Network.report, sampleNetwork, SortedMap.get?_insert, if_true,
      Neighbour.ofRecords, Except.mapError]
    exact (SortedMap.get?_eq_some_iff _).mp (by simp)
  have hrumour := Reached.mentioned hpeer hmention rfl (by decide)
  refine ⟨hend, (hcomplete.heights _ _).mpr ⟨hrumour, ?_⟩, (hcomplete.mem_found _).mpr ⟨?_, ?_⟩, ?_⟩
  · simp [Network.heightAt, Network.report, sampleNetwork, sampleRumour, samplePeer]
  · simp [SortedMap.mem_iff, sampleHome, sampleRumour, samplePeer]
  · exact ⟨samplePeer, hpeer, sampleInfo, hmention⟩
  · rw [hcomplete.mem_found]
    simp

end Discovery
end LedgerNode
