/-
  Asynchronous functions whose results are cached for a time.

  Many calls are under way at once.  A call that finds no entry asks its question, and stores the
  answer when it comes.  Times are in milliseconds, times to live in seconds.

  * `Store`: a store whose entries expire;
  * `step`, `run`: the calls and their answers, in any interleaving;
  * `run_fresh`: what a call returns is its own answer, or the answer to a call with the same key
    that has not expired.
-/
import Mathlib.Algebra.Order.Ring.Int
import Mathlib.Data.Finset.Dedup
import Mathlib.Data.Finset.Order
import Mathlib.Data.List.Induction

namespace Js.TimedCache

/-! ## Stores -/

/-- What has been set under a key. -/
structure Entry (V : Type) where
  key : String
  value : V
  setAt : ℤ
  ttl : ℤ

/-- What is found under a key at a time, when `entries` have been set, the last one first: at most
    the value that was set last, up to the end of its time to live. -/
structure Store (V : Type) where
  get : List (Entry V) → String → ℤ → Option V
  fresh : ∀ entries key now value, get entries key now = some value →
    ∃ e ∈ entries, e.key = key ∧ e.value = value ∧ now ≤ e.setAt + 1000 * e.ttl

variable {Q V : Type}

/-- The store that forgets nothing before its time. -/
def Store.exact : Store V where
  get entries key now := (entries.find? fun e => e.key = key).bind fun e =>
    if now ≤ e.setAt + 1000 * e.ttl then some e.value else none
  fresh entries key now value h := by
    obtain ⟨e, he, h⟩ := Option.bind_eq_some_iff.1 h
    split_ifs at h with hnow
    exact ⟨e, List.mem_of_find?_eq_some he, by simpa using List.find?_some he,
      Option.some.inj h, hnow⟩

/-! ## Runs -/

/-- A call: the question, and the key and the time to live of its answer if it is cached. -/
structure Request (Q : Type) where
  question : Q
  cached : Option (String × ℤ)

/-- The answer to a question. -/
structure Answered (Q V : Type) where
  request : Request Q
  value : V
  askedAt : ℤ
  answeredAt : ℤ

/-- What a call has returned. -/
structure Returned (Q V : Type) where
  request : Request Q
  value : V
  calledAt : ℤ
  returnedAt : ℤ

inductive Event (Q V : Type) where
  | call (id : ℕ) (request : Request Q)
  | answer (id : ℕ) (value : V)
  | fail (id : ℕ)

/-- The entries, the calls that wait for their answers with the times when they asked, the answers
    and the results so far. -/
structure State (Q V : Type) where
  entries : List (Entry V)
  waiting : List (ℕ × Request Q × ℤ)
  answers : List (Answered Q V)
  results : List (Returned Q V)

def State.initial : State Q V := ⟨[], [], [], []⟩

/-- The entry that an answer sets. -/
def Request.entries (r : Request Q) (value : V) (now : ℤ) : List (Entry V) :=
  match r.cached with
  | some (key, ttl) => [⟨key, value, now, ttl⟩]
  | none => []

variable (store : Store V) (truthy : V → Bool)

/-- The value under the key of a call, which must be truthy. -/
def found (s : State Q V) (r : Request Q) (now : ℤ) : Option V :=
  r.cached.bind fun (key, _) => (store.get s.entries key now).filter truthy

/-- One event, at the time `now`. -/
def step (s : State Q V) : ℤ × Event Q V → State Q V
  | (now, .call id r) =>
    match found store truthy s r now with
    | some value => { s with results := ⟨r, value, now, now⟩ :: s.results }
    | none => { s with waiting := (id, r, now) :: s.waiting }
  | (now, .answer id value) =>
    match s.waiting.find? fun w => w.1 = id with
    | none => s
    | some (_, r, askedAt) =>
      { entries := r.entries value now ++ s.entries
        waiting := s.waiting.filter fun w => w.1 ≠ id
        answers := ⟨r, value, askedAt, now⟩ :: s.answers
        results := ⟨r, value, askedAt, now⟩ :: s.results }
  | (_, .fail id) => { s with waiting := s.waiting.filter fun w => w.1 ≠ id }

def run (events : List (ℤ × Event Q V)) : State Q V := events.foldl (step store truthy) .initial

/-! ## Freshness -/

variable {store truthy}

/-- The result is the answer to a call with the same key. -/
inductive Returned.From (truthy : V → Bool) (r : Returned Q V) (a : Answered Q V) : Prop
  | own : a.request = r.request → a.value = r.value → a.askedAt = r.calledAt →
      a.answeredAt = r.returnedAt → From truthy r a
  | cached {key : String} {ttl ttl' : ℤ} : a.request.cached = some (key, ttl) →
      r.request.cached = some (key, ttl') → a.value = r.value → truthy r.value = true →
      r.calledAt = r.returnedAt → a.answeredAt ≤ r.returnedAt →
      r.returnedAt ≤ a.answeredAt + 1000 * ttl → From truthy r a

/-- What is known of a state up to the time `now`. -/
structure State.Fresh (truthy : V → Bool) (now : ℤ) (s : State Q V) : Prop where
  entries : ∀ e ∈ s.entries, ∃ a ∈ s.answers,
    a.request.cached = some (e.key, e.ttl) ∧ a.value = e.value ∧ a.answeredAt = e.setAt
  answers : ∀ a ∈ s.answers, a.askedAt ≤ a.answeredAt ∧ a.answeredAt ≤ now
  waiting : ∀ w ∈ s.waiting, w.2.2 ≤ now
  results : ∀ r ∈ s.results, ∃ a ∈ s.answers, r.From truthy a

theorem State.Fresh.initial (now : ℤ) : (State.initial : State Q V).Fresh truthy now :=
  ⟨nofun, nofun, nofun, nofun⟩

theorem State.Fresh.later {s : State Q V} {now now' : ℤ} (h : s.Fresh truthy now)
    (hle : now ≤ now') : s.Fresh truthy now' :=
  ⟨h.entries, fun a ha => ⟨(h.answers a ha).1, (h.answers a ha).2.trans hle⟩,
    fun w hw => (h.waiting w hw).trans hle, h.results⟩

/-- One event keeps what is known. -/
theorem State.Fresh.step {s : State Q V} {now : ℤ} (h : s.Fresh truthy now) (e : Event Q V) :
    (TimedCache.step store truthy s (now, e)).Fresh truthy now := by
  cases e with
  | call id r =>
    simp only [TimedCache.step]
    cases hfound : found store truthy s r now with
    | none =>
      exact ⟨h.entries, h.answers, List.forall_mem_cons.2 ⟨le_refl now, h.waiting⟩, h.results⟩
    | some value =>
      refine ⟨h.entries, h.answers, h.waiting, List.forall_mem_cons.2 ⟨?_, h.results⟩⟩
      obtain ⟨⟨key, ttl⟩, hcached, hget⟩ := Option.bind_eq_some_iff.1 hfound
      obtain ⟨hget, htruthy⟩ := Option.filter_eq_some_iff.1 hget
      obtain ⟨entry, hentry, rfl, rfl, hnow⟩ := store.fresh _ _ _ _ hget
      obtain ⟨a, ha, hreq, hvalue, hset⟩ := h.entries entry hentry
      exact ⟨a, ha, .cached hreq hcached hvalue htruthy rfl (h.answers a ha).2 (hset ▸ hnow)⟩
  | answer id value =>
    simp only [TimedCache.step]
    cases hfind : s.waiting.find? fun w => w.1 = id with
    | none => exact h
    | some w =>
      obtain ⟨id', r, askedAt⟩ := w
      have hasked : askedAt ≤ now := h.waiting _ (List.mem_of_find?_eq_some hfind)
      refine ⟨fun e he => ?_, List.forall_mem_cons.2 ⟨⟨hasked, le_refl now⟩, h.answers⟩,
        fun w hw => h.waiting w (List.mem_filter.1 hw).1, List.forall_mem_cons.2 ⟨?_, ?_⟩⟩
      · rcases List.mem_append.1 he with he | he
        · refine ⟨_, List.mem_cons_self, ?_⟩
          unfold Request.entries at he
          cases hcached : r.cached with
          | none =>
            rw [hcached] at he
            cases he
          | some c =>
            rw [hcached] at he
            obtain rfl := List.mem_singleton.1 he
            exact ⟨rfl, rfl, rfl⟩
        · obtain ⟨a, ha, hrest⟩ := h.entries e he
          exact ⟨a, List.mem_cons_of_mem _ ha, hrest⟩
      · exact ⟨_, List.mem_cons_self, .own rfl rfl rfl rfl⟩
      · intro r' hr'
        obtain ⟨a, ha, hfrom⟩ := h.results r' hr'
        exact ⟨a, List.mem_cons_of_mem _ ha, hfrom⟩
  | fail id =>
    exact ⟨h.entries, h.answers, fun w hw => h.waiting w (List.mem_filter.1 hw).1, h.results⟩

/-- **Every result is fresh**, while the clock does not go back. -/
theorem run_fresh {events : List (ℤ × Event Q V)}
    (hclock : (events.map Prod.fst).Pairwise (· ≤ ·)) :
    ∀ r ∈ (run store truthy events).results,
      ∃ a ∈ (run store truthy events).answers, r.From truthy a ∧ a.askedAt ≤ a.answeredAt := by
  have hrun : ∀ now, (∀ t ∈ events.map Prod.fst, t ≤ now) →
      (run store truthy events).Fresh truthy now := by
    induction events using List.reverseRecOn with
    | nil => exact fun now _ => .initial now
    | append_singleton events e ih =>
      rw [List.map_append, List.pairwise_append] at hclock
      intro now hnow
      rw [List.map_append] at hnow
      have hbefore := ih hclock.1 e.1 fun t ht => hclock.2.2 t ht e.1 (List.mem_singleton_self _)
      have hle : e.1 ≤ now := hnow e.1 (List.mem_append_right _ (List.mem_singleton_self _))
      rw [run, List.foldl_append]
      exact (hbefore.step e.2).later hle
  obtain ⟨now, hnow⟩ := (events.map Prod.fst).toFinset.exists_le
  replace hrun := hrun now fun t ht => hnow t (List.mem_toFinset.2 ht)
  intro r hr
  obtain ⟨a, ha, hfrom⟩ := hrun.results r hr
  exact ⟨a, ha, hfrom, (hrun.answers a ha).1⟩

/-! ## Calls -/

/-- The calls of a state, with the times when they were made, satisfy `P`. -/
structure State.Called (P : ℤ → Request Q → Prop) (s : State Q V) : Prop where
  waiting : ∀ w ∈ s.waiting, P w.2.2 w.2.1
  answers : ∀ a ∈ s.answers, P a.askedAt a.request
  results : ∀ r ∈ s.results, P r.calledAt r.request

theorem State.Called.step {P : ℤ → Request Q → Prop} {s : State Q V} (h : s.Called P)
    {e : ℤ × Event Q V} (he : ∀ id r, e.2 = .call id r → P e.1 r) :
    (TimedCache.step store truthy s e).Called P := by
  obtain ⟨now, e⟩ := e
  cases e with
  | call id r =>
    have hr : P now r := he id r rfl
    simp only [TimedCache.step]
    cases found store truthy s r now with
    | none => exact ⟨List.forall_mem_cons.2 ⟨hr, h.waiting⟩, h.answers, h.results⟩
    | some value => exact ⟨h.waiting, h.answers, List.forall_mem_cons.2 ⟨hr, h.results⟩⟩
  | answer id value =>
    simp only [TimedCache.step]
    cases hfind : s.waiting.find? fun w => w.1 = id with
    | none => exact h
    | some w =>
      have hw := h.waiting w (List.mem_of_find?_eq_some hfind)
      exact ⟨fun w hw => h.waiting w (List.mem_filter.1 hw).1,
        List.forall_mem_cons.2 ⟨hw, h.answers⟩, List.forall_mem_cons.2 ⟨hw, h.results⟩⟩
  | fail id => exact ⟨fun w hw => h.waiting w (List.mem_filter.1 hw).1, h.answers, h.results⟩

theorem run_called {P : ℤ → Request Q → Prop} {events : List (ℤ × Event Q V)}
    (h : ∀ e ∈ events, ∀ id r, e.2 = .call id r → P e.1 r) :
    (run store truthy events).Called P := by
  induction events using List.reverseRecOn with
  | nil => exact ⟨nofun, nofun, nofun⟩
  | append_singleton events e ih =>
    obtain ⟨hevents, he⟩ := List.forall_mem_append.1 h
    rw [run, List.foldl_append]
    exact (ih hevents).step (he e (List.mem_singleton_self e))

end Js.TimedCache
