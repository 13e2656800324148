import Mathlib.Data.List.Infix
import ProductionStack.Dict
import ProductionStack.Runs

namespace ProductionStack.ListWatch

open Runs

inductive Kind
  | added
  | modified
  | deleted
  deriving DecidableEq, Repr

structure Event (K O : Type) where
  kind : Kind
  key : K
  object : O

inductive Change (K O : Type)
  | put (key : K) (object : O)
  | remove (key : K)

/-- A store and one stream that follows it: changes made while the stream is
down are never delivered, and a new stream first replays what the store holds. -/
structure Server (K O : Type) where
  store : Dict K O
  connected : Bool
  pending : List (Event K O)

variable {K O : Type} [DecidableEq K]

namespace Server

def announce (s : Server K O) (e : Event K O) : List (Event K O) :=
  if s.connected then s.pending ++ [e] else s.pending

def change (s : Server K O) : Change K O → Server K O
  | .put key object =>
    { s with
      store := s.store.set key object
      pending := s.announce ⟨if s.store.contains key then .modified else .added, key, object⟩ }
  | .remove key =>
    match s.store.get? key with
    | none => s
    | some object =>
      { s with store := s.store.erase key, pending := s.announce ⟨.deleted, key, object⟩ }

def disconnect (s : Server K O) : Server K O := { s with connected := false, pending := [] }

def reconnect (s : Server K O) : Server K O :=
  { s with connected := true, pending := s.store.entries.map (fun e => ⟨.added, e.1, e.2⟩) }

end Server

namespace Server

theorem change_connected (s : Server K O) (c : Change K O) : (s.change c).connected = s.connected := by
  cases c with
  | put key object => rfl
  | remove key =>
    rw [change]
    split <;> rfl

theorem change_pending_down {s : Server K O} (h : s.connected = false) (c : Change K O) :
    (s.change c).pending = s.pending := by
  cases c with
  | put key object => simp [change, announce, h]
  | remove key =>
    rw [change]
    split <;> simp [announce, h]

theorem change_pending {s : Server K O} (h : s.connected = true) (c : Change K O) :
    ∃ later, (s.change c).pending = s.pending ++ later := by
  cases c with
  | put key object => exact ⟨_, if_pos h⟩
  | remove key =>
    rw [change]
    split
    · exact ⟨[], by simp⟩
    · exact ⟨_, if_pos h⟩

theorem change_other {s : Server K O} (hconn : s.connected = true) {c : Change K O} {k : K}
    (hk : ∀ e ∈ (s.change c).pending, e.key ≠ k) :
    (∀ e ∈ s.pending, e.key ≠ k) ∧ (s.change c).store.get? k = s.store.get? k := by
  cases c with
  | put key object =>
    simp only [change, announce, hconn, if_true, List.mem_append, List.mem_singleton] at hk ⊢
    refine ⟨fun e hmem => hk e (.inl hmem), ?_⟩
    exact Dict.get?_set_of_ne _ _ (hk _ (.inr rfl)).symm
  | remove key =>
    cases hget : s.store.get? key with
    | none =>
      simp only [change, hget] at hk ⊢
      exact ⟨hk, trivial⟩
    | some object =>
      simp only [change, hget, announce, hconn, if_true, List.mem_append, List.mem_singleton] at hk ⊢
      refine ⟨fun e hmem => hk e (.inl hmem), ?_⟩
      rw [Dict.get?_erase, if_neg (hk _ (.inr rfl)).symm]

end Server

def Event.outcome (e : Event K O) : Option O :=
  match e.kind with
  | .deleted => none
  | _ => some e.object

/-- The last pending event about a key announces what the store holds under it. -/
def Announced (s : Server K O) : Prop :=
  ∀ e post, e :: post <:+ s.pending → (∀ e' ∈ post, e'.key ≠ e.key) → s.store.get? e.key = e.outcome

omit [DecidableEq K] in
theorem cons_suffix_append_singleton {e x : Event K O} {post events : List (Event K O)} (h : e :: post <:+ events ++ [x]) :
    (e = x ∧ post = []) ∨ ∃ post', post = post' ++ [x] ∧ e :: post' <:+ events := by
  obtain ⟨pre, hpre⟩ := h
  cases post using List.reverseRecOn with
  | nil =>
    obtain ⟨-, hlast⟩ := List.append_inj' hpre rfl
    exact .inl ⟨by simpa using hlast, rfl⟩
  | append_singleton post' y =>
    have hsplit : (pre ++ e :: post') ++ [y] = events ++ [x] := by simpa using hpre
    obtain ⟨hinit, hlast⟩ := List.append_inj' hsplit rfl
    refine .inr ⟨post', by simpa using hlast, pre, hinit⟩

theorem announced_announce {s : Server K O} (h : Announced s) {x : Event K O} {store : Dict K O}
    (hself : store.get? x.key = x.outcome) (hother : ∀ k, k ≠ x.key → store.get? k = s.store.get? k)
    (hdown : s.connected = false → s.pending = []) : Announced { s with store := store, pending := s.announce x } := by
  intro e post hsuffix hlast
  by_cases hconn : s.connected = true
  · simp only [Server.announce, hconn, if_true] at hsuffix
    rcases cons_suffix_append_singleton hsuffix with ⟨rfl, -⟩ | ⟨post', rfl, hinit⟩
    · exact hself
    · have hne : x.key ≠ e.key := hlast x (by simp)
      rw [hother e.key hne.symm]
      exact h e post' hinit (fun e' hmem => hlast e' (by simp [hmem]))
  · have hnil := hdown (by simpa using hconn)
    simp [Server.announce, hconn, hnil] at hsuffix

theorem announced_change {s : Server K O} (h : Announced s) (hdown : s.connected = false → s.pending = [])
    (c : Change K O) : Announced (s.change c) := by
  cases c with
  | put key object =>
    apply announced_announce h _ _ hdown
    · rw [Dict.get?_set_self]
      cases s.store.contains key <;> rfl
    · intro k hk
      exact Dict.get?_set_of_ne _ _ hk
  | remove key =>
    rw [Server.change]
    split
    · exact h
    · apply announced_announce h _ _ hdown
      · simp [Dict.get?_erase, Event.outcome]
      · intro k hk
        rw [Dict.get?_erase, if_neg hk]

theorem announced_reconnect (s : Server K O) : Announced s.reconnect := by
  intro e post hsuffix hlast
  have hmem : e ∈ s.store.entries.map (fun e => (⟨.added, e.1, e.2⟩ : Event K O)) :=
    hsuffix.subset (by simp)
  obtain ⟨⟨key, object⟩, hentry, rfl⟩ := List.mem_map.mp hmem
  exact Dict.get?_of_mem s.store hentry

structure World (K O σ : Type) where
  server : Server K O
  follower : σ

inductive Action (K O ρ : Type)
  | change (c : Change K O)
  | deliver (reply : ρ)
  | disconnect
  | reconnect

variable {σ ρ : Type}

/-- A follower that fails on an event drops the stream and keeps its state. -/
def step (handle : σ → Event K O → ρ → Option σ) : Component (World K O σ) (Action K O ρ) Unit
  | w, .change c => ((), { w with server := w.server.change c })
  | w, .deliver reply =>
    match w.server.pending with
    | [] => ((), w)
    | e :: rest =>
      match handle w.follower e reply with
      | some next => ((), ⟨{ w.server with pending := rest }, next⟩)
      | none => ((), { w with server := w.server.disconnect })
  | w, .disconnect => ((), { w with server := w.server.disconnect })
  | w, .reconnect => ((), { w with server := w.server.reconnect })

def init (store : Dict K O) (follower : σ) : World K O σ := ⟨⟨store, false, []⟩, follower⟩

structure Follows (Settled : Option O → σ → K → Prop) (w : World K O σ) : Prop where
  announced : Announced w.server
  down : w.server.connected = false → w.server.pending = []
  settled : w.server.connected = true → ∀ k, (∀ e ∈ w.server.pending, e.key ≠ k) →
    Settled (w.server.store.get? k) w.follower k

section Rule

variable {handle : σ → Event K O → ρ → Option σ} {Settled : Option O → σ → K → Prop}
  {Safe : World K O σ → Action K O ρ → Prop}

theorem follows_disconnect {w : World K O σ} : Follows Settled { w with server := w.server.disconnect } := by
  refine ⟨?_, fun _ => rfl, ?_⟩
  · intro e post hsuffix
    simp [Server.disconnect] at hsuffix
  · intro hconn
    cases hconn

theorem follows_change {w : World K O σ} (h : Follows Settled w) (c : Change K O) :
    Follows Settled { w with server := w.server.change c } := by
  refine ⟨announced_change h.announced h.down c, ?_, ?_⟩
  · intro hconn
    rw [Server.change_connected] at hconn
    rw [Server.change_pending_down hconn, h.down hconn]
  · intro hconn k hk
    rw [Server.change_connected] at hconn
    obtain ⟨hpending, hstore⟩ := Server.change_other hconn hk
    rw [hstore]
    exact h.settled hconn k hpending

theorem follows_deliver
    (hother : ∀ {c e r c' o k}, handle c e r = some c' → k ≠ e.key → Settled o c k → Settled o c' k)
    (hself : ∀ {w e rest r c'}, w.server.pending = e :: rest → Safe w (.deliver r) →
      handle w.follower e r = some c' → Settled e.outcome c' e.key)
    {w : World K O σ} (h : Follows Settled w) {reply : ρ} (hsafe : Safe w (.deliver reply)) :
    Follows Settled (step handle w (.deliver reply)).2 := by
  rw [step]
  split
  · exact h
  next e rest hpending =>
    split
    next next hnext =>
      refine ⟨?_, ?_, ?_⟩
      · intro e' post hsuffix
        exact h.announced e' post (hsuffix.trans (hpending ▸ List.suffix_cons e rest))
      · intro hconn
        have hnil := h.down hconn
        rw [hpending] at hnil
        cases hnil
      · intro hconn k hk
        change Settled (w.server.store.get? k) next k
        by_cases hkey : k = e.key
        · subst hkey
          rw [h.announced e rest (hpending ▸ List.suffix_rfl) hk]
          exact hself hpending hsafe hnext
        · apply hother hnext hkey
          apply h.settled hconn
          intro e' hmem
          rw [hpending, List.mem_cons] at hmem
          rcases hmem with rfl | hmem
          · exact fun heq => hkey heq.symm
          · exact hk e' hmem
    · exact follows_disconnect

theorem follows_reconnect (hreconnect : ∀ {w k}, Safe w .reconnect → w.server.store.get? k = none → Settled none w.follower k)
    {w : World K O σ} (hsafe : Safe w .reconnect) : Follows Settled { w with server := w.server.reconnect } := by
  refine ⟨announced_reconnect w.server, ?_, ?_⟩
  · intro hconn
    cases hconn
  · intro _ k hk
    have hnone : w.server.store.get? k = none := by
      cases hget : w.server.store.get? k with
      | none => rfl
      | some object =>
        have hmem := Dict.mem_of_get? hget
        exact absurd rfl (hk ⟨.added, k, object⟩ (List.mem_map.mpr ⟨_, hmem, rfl⟩))
    change Settled (w.server.store.get? k) w.follower k
    rw [hnone]
    exact hreconnect hsafe hnone

/-- A follower that is settled on a key once it handled the last event about it is settled on every
key whenever it has worked off its stream. -/
theorem converges
    (hother : ∀ {c e r c' o k}, handle c e r = some c' → k ≠ e.key → Settled o c k → Settled o c' k)
    (hself : ∀ {w e rest r c'}, w.server.pending = e :: rest → Safe w (.deliver r) →
      handle w.follower e r = some c' → Settled e.outcome c' e.key)
    (hreconnect : ∀ {w k}, Safe w .reconnect → w.server.store.get? k = none → Settled none w.follower k)
    {store : Dict K O} {follower : σ} {actions : List (Action K O ρ)}
    (hsafe : Along (step handle) Safe (init store follower) actions) :
    Follows Settled (final (step handle) (init store follower) actions) := by
  refine final_invariant (I := Follows Settled) ?_ ?_ hsafe
  · intro w action h hw
    cases action with
    | change c => exact follows_change h c
    | deliver reply => exact follows_deliver hother hself h hw
    | disconnect => exact follows_disconnect
    | reconnect => exact follows_reconnect hreconnect hw
  · refine ⟨?_, fun _ => rfl, ?_⟩
    · intro e post hsuffix
      simp [init] at hsuffix
    · intro hconn
      cases hconn

end Rule

section Tables

variable {V : Type}

/-- What the handling of an event does to a table under the key of the event. -/
inductive Verdict (V : Type)
  | put (value : V)
  | drop
  | keep

def Verdict.entry : Verdict V → Option V
  | put value => some value
  | _ => none

def Verdict.apply (key : K) (table : Dict K V) : Verdict V → Dict K V
  | put value => table.set key value
  | drop => table.erase key
  | keep => table

theorem Verdict.get?_apply_of_ne (verdict : Verdict V) (table : Dict K V) {k key : K} (h : k ≠ key) :
    (verdict.apply key table).get? k = table.get? k := by
  cases verdict with
  | put value => exact Dict.get?_set_of_ne _ _ h
  | drop =>
    rw [apply, Dict.get?_erase, if_neg h]
  | keep => rfl

theorem Verdict.get?_apply_self (verdict : Verdict V) (table : Dict K V) (key : K)
    (h : verdict = .keep → table.get? key = none) : (verdict.apply key table).get? key = verdict.entry := by
  cases verdict with
  | put value => exact Dict.get?_set_self _ _ _
  | drop =>
    rw [apply, Dict.get?_erase, if_pos rfl]
    rfl
  | keep => exact h rfl

/-- A table, with the object and the reply of the last event that was handled about each key. -/
structure Watched (K O ρ V : Type) where
  table : Dict K V
  seen : Dict K (O × ρ)

/-- A follower that keeps a table judges each event by itself; no verdict means that it fails. -/
def observe (judge : Event K O → ρ → Option (Verdict V)) (f : Watched K O ρ V) (e : Event K O) (reply : ρ) :
    Option (Watched K O ρ V) :=
  (judge e reply).map (fun verdict =>
    ⟨verdict.apply e.key f.table,
      if e.kind = .deleted then f.seen.erase e.key else f.seen.set e.key (e.object, reply)⟩)

variable {judge : Event K O → ρ → Option (Verdict V)}

theorem observe_eq_some {f f' : Watched K O ρ V} {e : Event K O} {reply : ρ} (h : observe judge f e reply = some f') :
    ∃ verdict, judge e reply = some verdict ∧ f'.table = verdict.apply e.key f.table ∧
      f'.seen = if e.kind = .deleted then f.seen.erase e.key else f.seen.set e.key (e.object, reply) := by
  obtain ⟨verdict, hjudge, rfl⟩ := Option.map_eq_some_iff.mp h
  exact ⟨verdict, hjudge, rfl, rfl⟩

/-- Under the key is what the last event about it gave, which had the object; without an object there is
nothing. -/
def Mirrors (judge : Event K O → ρ → Option (Verdict V)) (object : Option O) (f : Watched K O ρ V) (key : K) : Prop :=
  match object with
  | none => f.table.get? key = none
  | some o => ∃ kind reply verdict, kind ≠ .deleted ∧ f.seen.get? key = some (o, reply) ∧
      judge ⟨kind, key, o⟩ reply = some verdict ∧ f.table.get? key = verdict.entry

/-- No entry is met by a verdict that keeps it, and a new stream finds the object of every entry. -/
def KeepsNothing (judge : Event K O → ρ → Option (Verdict V)) (w : World K O (Watched K O ρ V)) : Action K O ρ → Prop
  | .deliver reply => ∀ e rest, w.server.pending = e :: rest → judge e reply = some .keep →
      w.follower.table.get? e.key = none
  | .reconnect => ∀ k, w.server.store.get? k = none → w.follower.table.get? k = none
  | _ => True

theorem mirrors_other {f f' : Watched K O ρ V} {e : Event K O} {reply : ρ} {object : Option O} {k : K}
    (h : observe judge f e reply = some f') (hk : k ≠ e.key) (hm : Mirrors judge object f k) : Mirrors judge object f' k := by
  obtain ⟨verdict, -, htable, hseen⟩ := observe_eq_some h
  have hentry : f'.table.get? k = f.table.get? k := by
    rw [htable]
    exact verdict.get?_apply_of_ne f.table hk
  have hlast : f'.seen.get? k = f.seen.get? k := by
    rw [hseen]
    split
    · rw [Dict.get?_erase, if_neg hk]
    · exact Dict.get?_set_of_ne _ _ hk
  cases object with
  | none => exact hentry.trans hm
  | some o =>
    obtain ⟨kind, r, v, hkind, hr, hjudge, hget⟩ := hm
    exact ⟨kind, r, v, hkind, hlast.trans hr, hjudge, hentry.trans hget⟩

theorem mirrors_self (hdeleted : ∀ e reply, e.kind = .deleted → judge e reply = some .drop) {w : World K O (Watched K O ρ V)}
    {e : Event K O} {rest : List (Event K O)} {reply : ρ} {f' : Watched K O ρ V} (hpending : w.server.pending = e :: rest)
    (hsafe : KeepsNothing judge w (.deliver reply)) (h : observe judge w.follower e reply = some f')
    : Mirrors judge e.outcome f' e.key := by
  obtain ⟨verdict, hjudge, htable, hseen⟩ := observe_eq_some h
  have hself : f'.table.get? e.key = verdict.entry := by
    rw [htable]
    exact verdict.get?_apply_self w.follower.table e.key (fun hkeep => hsafe e rest hpending (hkeep ▸ hjudge))
  by_cases hkind : e.kind = .deleted
  · have hdrop : verdict = .drop := Option.some.inj (hjudge.symm.trans (hdeleted e reply hkind))
    have hout : e.outcome = none := by
      rw [Event.outcome, hkind]
    rw [hout]
    rw [hdrop] at hself
    exact hself
  · have hout : e.outcome = some e.object := by
      rw [Event.outcome]
      split
      · contradiction
      · rfl
    rw [if_neg hkind] at hseen
    rw [hout]
    refine ⟨e.kind, reply, verdict, hkind, ?_, hjudge, hself⟩
    rw [hseen, Dict.get?_set_self]

theorem table_converges (hdeleted : ∀ e reply, e.kind = .deleted → judge e reply = some .drop) {store : Dict K O}
    {f : Watched K O ρ V} {actions : List (Action K O ρ)}
    (hsafe : Along (step (observe judge)) (KeepsNothing judge) (init store f) actions) :
    Follows (Mirrors judge) (final (step (observe judge)) (init store f) actions) :=
  converges mirrors_other (mirrors_self hdeleted) (fun hw hnone => hw _ hnone) hsafe

end Tables

section Blocked

variable {handle : σ → Event K O → ρ → Option σ} {I : σ → Prop} {front : List K} {blocker : K}

/-- One key of the store, with only keys of a front before it, is announced before all others that are
not of the front. -/
structure Blocked (I : σ → Prop) (front : List K) (blocker : K) (w : World K O σ) : Prop where
  follower : I w.follower
  listed : ∃ pre post, w.server.store.keys = pre ++ blocker :: post ∧ pre ⊆ front
  down : w.server.connected = false → w.server.pending = []
  queued : w.server.connected = true → ∃ ahead e behind, w.server.pending = ahead ++ e :: behind ∧
    (∀ x ∈ ahead, x.key ∈ front) ∧ e.key = blocker ∧ e.kind = .added

def Obstructs (handle : σ → Event K O → ρ → Option σ) (blocker : K) (w : World K O σ) : Action K O ρ → Prop
  | .deliver reply => ∀ e rest, w.server.pending = e :: rest → e.key = blocker → e.kind = .added →
      handle w.follower e reply = none
  | .change (.remove key) => key ≠ blocker
  | _ => True

omit [DecidableEq K] in
theorem blocked_disconnect {w : World K O σ} (h : Blocked I front blocker w) :
    Blocked I front blocker { w with server := w.server.disconnect } := by
  refine ⟨h.follower, h.listed, fun _ => rfl, ?_⟩
  intro hconn
  cases hconn

theorem keys_change_listed {s : Server K O} {c : Change K O} (hkeep : ∀ key, c = .remove key → key ≠ blocker)
    (h : ∃ pre post, s.store.keys = pre ++ blocker :: post ∧ pre ⊆ front) :
    ∃ pre post, (s.change c).store.keys = pre ++ blocker :: post ∧ pre ⊆ front := by
  obtain ⟨pre, post, hkeys, hpre⟩ := h
  cases c with
  | put key object =>
    change ∃ pre post, (s.store.set key object).keys = pre ++ blocker :: post ∧ pre ⊆ front
    rw [Dict.keys_set]
    split
    · exact ⟨pre, post, hkeys, hpre⟩
    · refine ⟨pre, post ++ [key], ?_, hpre⟩
      rw [hkeys, List.append_assoc, List.cons_append]
  | remove key =>
    have hne := hkeep key rfl
    rw [Server.change]
    split
    · exact ⟨pre, post, hkeys, hpre⟩
    · refine ⟨pre.filter (· ≠ key), post.filter (· ≠ key), ?_, ?_⟩
      · have herase : (s.store.erase key).keys = s.store.keys.filter (· ≠ key) := by
          simp [Dict.keys, Dict.erase, List.filter_map, Function.comp_def]
        rw [herase, hkeys, List.filter_append, List.filter_cons_of_pos (by simpa using hne.symm)]
      · exact fun k hk => hpre (List.mem_of_mem_filter hk)

theorem blocked_change {w : World K O σ} (h : Blocked I front blocker w) {c : Change K O}
    (hkeep : ∀ key, c = .remove key → key ≠ blocker) : Blocked I front blocker { w with server := w.server.change c } := by
  refine ⟨h.follower, keys_change_listed hkeep h.listed, ?_, ?_⟩
  · intro hconn
    rw [Server.change_connected] at hconn
    rw [Server.change_pending_down hconn, h.down hconn]
  · intro hconn
    rw [Server.change_connected] at hconn
    obtain ⟨ahead, e, behind, hpending, hahead, hkey, hkind⟩ := h.queued hconn
    obtain ⟨later, hlater⟩ := Server.change_pending hconn c
    refine ⟨ahead, e, behind ++ later, ?_, hahead, hkey, hkind⟩
    rw [hlater, hpending, List.append_assoc, List.cons_append]

theorem blocked_deliver (hfront : ∀ {c e r c'}, handle c e r = some c' → e.key ∈ front → I c → I c') {w : World K O σ}
    (h : Blocked I front blocker w) {reply : ρ} (hobstructs : Obstructs handle blocker w (.deliver reply)) :
    Blocked I front blocker (step handle w (.deliver reply)).2 := by
  rw [step]
  split
  · exact h
  next e rest hpending =>
    split
    next next hnext =>
      have hconn : w.server.connected = true := by
        by_contra hdown
        have hnil := h.down (by simpa using hdown)
        rw [hpending] at hnil
        cases hnil
      obtain ⟨ahead, blocked, behind, hsplit, hahead, hkey, hkind⟩ := h.queued hconn
      rw [hpending] at hsplit
      cases ahead with
      | nil =>
        cases hsplit
        rw [hobstructs e rest hpending hkey hkind] at hnext
        cases hnext
      | cons x ahead =>
        obtain ⟨rfl, rfl⟩ := List.cons.inj hsplit
        refine ⟨hfront hnext (hahead e List.mem_cons_self) h.follower, h.listed, ?_, ?_⟩
        · intro hdown
          rw [hdown] at hconn
          cases hconn
        · intro _
          exact ⟨ahead, blocked, behind, rfl, fun y hy => hahead y (List.mem_cons_of_mem e hy), hkey, hkind⟩
    · exact blocked_disconnect h

omit [DecidableEq K] in
theorem blocked_reconnect {w : World K O σ} (h : Blocked I front blocker w) :
    Blocked I front blocker { w with server := w.server.reconnect } := by
  refine ⟨h.follower, h.listed, ?_, ?_⟩
  · intro hconn
    cases hconn
  · intro _
    obtain ⟨pre, post, hkeys, hpre⟩ := h.listed
    obtain ⟨before, rest, hentries, rfl, hrest⟩ := List.map_eq_append_iff.mp hkeys
    obtain ⟨entry, after, rfl, rfl, -⟩ := List.map_eq_cons_iff.mp hrest
    refine ⟨before.map (fun e => ⟨.added, e.1, e.2⟩), ⟨.added, entry.1, entry.2⟩,
      after.map (fun e => ⟨.added, e.1, e.2⟩), ?_, ?_, rfl, rfl⟩
    · simp [Server.reconnect, hentries]
    · intro x hx
      obtain ⟨e, he, rfl⟩ := List.mem_map.mp hx
      exact hpre (List.mem_map_of_mem he)

/-- A follower that fails on one key of the store learns of no key behind it: what the events about the
keys before it preserve holds in every run. -/
theorem blocked_run (hfront : ∀ {c e r c'}, handle c e r = some c' → e.key ∈ front → I c → I c') {store : Dict K O}
    {follower : σ} (hI : I follower) (hlisted : ∃ pre post, store.keys = pre ++ blocker :: post ∧ pre ⊆ front)
    {actions : List (Action K O ρ)} (hrun : Along (step handle) (Obstructs handle blocker) (init store follower) actions) :
    I (final (step handle) (init store follower) actions).follower := by
  refine (final_invariant (I := Blocked I front blocker) ?_ ?_ hrun).follower
  · intro w action h hw
    cases action with
    | change c =>
      apply blocked_change h
      rintro key rfl
      exact hw
    | deliver reply => exact blocked_deliver hfront h hw
    | disconnect => exact blocked_disconnect h
    | reconnect => exact blocked_reconnect h
  · refine ⟨hI, hlisted, fun _ => rfl, ?_⟩
    intro hconn
    cases hconn

end Blocked

end ProductionStack.ListWatch
