import Mathlib.Data.List.Induction
import Sqlwright.Proofs.Layers

/-!
# Routing through a registry

A session is a registry together with what its requests handed out: connections, the builders and
tables made from them, and the queries built on those. Whatever its history is, a name leads to its
latest registration unless it was removed since, and what was handed out keeps to the executor that
it was registered with, however its name fares later (`Session.routes`).
-/

namespace Sqlwright

/-! ## Sessions -/

/-- An executor that is given a name. -/
structure Registration where
  name : String
  executor : Executor
  verbose : Bool

def Registration.connection (r : Registration) : Connection :=
  .ofExecutor r.name r.executor r.verbose

/-- Something that a session hands out, for statements to be run through. -/
inductive Outlet where
  | connection (c : Connection)
  | builder (b : Builder)
  | table (t : Table)
  | query (q : Query)

/-- A way to make one outlet from another. -/
inductive Derivation where
  | builder
  | table (config : TableConfig)
  | program (start : Start) (steps : List Step)
  | operation (op : Operation)
  | further (steps : List Step)

/-- The executor that a derivation changes to. -/
def Derivation.executor? : Derivation → Option Executor
  | .program _ steps | .further steps => lastExecutor? steps
  | _ => none

namespace Outlet

/-- The executor that an outlet runs statements on. -/
def executor? : Outlet → Option Executor
  | .connection c => some c.executor
  | .builder b => b.executor
  | .table t => t.builder.executor
  | .query q => q.executor

/-- Makes one outlet from another, if it is of a kind that allows it and nothing is refused. -/
def derive? : Outlet → Derivation → Option Outlet
  | .connection c, .builder => some (.builder c.builder)
  | .connection c, .table config => (c.table config).toOption.map .table
  | .table t, .builder => some (.builder t.builder)
  | .builder b, .program start steps => (b.build start steps).toOption.map .query
  | .table t, .operation op => (op.run t).toOption.map .query
  | .query q, .further steps => (q.steps steps).toOption.map .query
  | _, _ => none

/-- Runs a statement through a connection, or the statement of a query; gives it with its run. -/
def run? : Outlet → Option Statement → Option (Statement × Run)
  | .connection c, some s => some (s, c.execute s)
  | .query q, none => some (q.statement, q.execute)
  | _, _ => none

end Outlet

/-- A request of a session. It names an outlet by the number of the request that handed it out. -/
inductive Request where
  | register (r : Registration)
  | remove (name : String)
  | get (name : String)
  | contains (name : String)
  | names
  | derive (source : Nat) (d : Derivation)
  | run (source : Nat) (s : Option Statement)

/-- What a request is answered with, and what is logged for it. -/
inductive Reply where
  | registered (c : Connection) (event : Event)
  | removed (found : Option Connection) (events : List Event)
  | got (found : Except Fault Connection)
  | contained (found : Bool)
  | listed (names : List String)
  | derived (o : Option Outlet)
  | ran (run : Option (Statement × Run))

/-- What a reply hands out. -/
def Reply.outlet? : Reply → Option Outlet
  | .registered c _ | .removed (some c) _ | .got (.ok c) => some (.connection c)
  | .derived o => o
  | _ => none

/-- A registry, with what was handed out on the way. -/
structure Session where
  registry : Registry
  /-- What each request so far handed out. -/
  outlets : List (Option Outlet)

namespace Session

def empty : Session := ⟨.empty, []⟩

variable (s : Session)

def outlet? (k : Nat) : Option Outlet := s.outlets[k]?.join

def reply : Request → Reply
  | .register r =>
    let answer := (s.registry.register r.name r.executor r.verbose).2
    .registered answer.1 answer.2
  | .remove name =>
    let answer := (s.registry.remove name).2
    .removed answer.1 answer.2
  | .get name => .got (s.registry.get name)
  | .contains name => .contained (s.registry.contains name)
  | .names => .listed s.registry.names
  | .derive source d => .derived ((s.outlet? source).bind fun o => o.derive? d)
  | .run source statement => .ran ((s.outlet? source).bind fun o => o.run? statement)

def registryAfter : Request → Registry
  | .register r => (s.registry.register r.name r.executor r.verbose).1
  | .remove name => (s.registry.remove name).1
  | _ => s.registry

def step (x : Request) : Session := ⟨s.registryAfter x, s.outlets ++ [(s.reply x).outlet?]⟩

/-- The session after some requests. -/
def after (past : List Request) : Session := past.foldl step empty

theorem after_concat (past : List Request) (x : Request) :
    after (past ++ [x]) = (after past).step x := by
  rw [after, List.foldl_append]
  rfl

end Session

/-! ## Histories -/

/-- Whether a request gives a name to a connection, or removes it. -/
def Request.Concerns (name : String) : Request → Prop
  | .register r => r.name = name
  | .remove other => other = name
  | _ => False

/-- A name was registered, and not removed since. -/
def Live (past : List Request) (name : String) : Prop :=
  ∃ r before after, past = before ++ .register r :: after ∧ r.name = name ∧ .remove name ∉ after

/-- The latest registration of a name that was not removed since. -/
def Latest (past : List Request) (name : String) (r : Registration) : Prop :=
  ∃ before after, past = before ++ .register r :: after ∧ r.name = name ∧
    ∀ x ∈ after, ¬x.Concerns name

/-- Whether a request handed out the connection of a registration: it registered it, or it got or
removed a name whose latest registration it was. -/
def Handles (past : List Request) (k : Nat) (r : Registration) : Prop :=
  past[k]? = some (.register r) ∨
    ∃ name, (past[k]? = some (.get name) ∨ past[k]? = some (.remove name)) ∧
      Latest (past.take k) name r

/-- The executor that what a request handed out goes back to: the one that its connection was
registered with, or one that a derivation changed to. -/
inductive Origin (past : List Request) : Nat → Executor → Prop
  | handle {k : Nat} {r : Registration} (h : Handles past k r) : Origin past k r.executor
  | keep {k source : Nat} {d : Derivation} {e : Executor}
    (h : past[k]? = some (.derive source d)) (hd : d.executor? = none)
    (hsource : Origin past source e) : Origin past k e
  | change {k source : Nat} {d : Derivation} {e : Executor}
    (h : past[k]? = some (.derive source d)) (hd : d.executor? = some e) : Origin past k e

section Histories

variable {past : List Request} {x : Request} {name : String} {r : Registration}

/-- A request of a longer history is its last one, or one of the shorter history. -/
theorem concat_split_iff {y : Request} {P : List Request → Prop} :
    (∃ before after, past ++ [x] = before ++ y :: after ∧ P after) ↔
      x = y ∧ P [] ∨ ∃ before after, past = before ++ y :: after ∧ P (after ++ [x]) := by
  constructor
  · rintro ⟨before, after, h, hP⟩
    cases after using List.reverseRecOn with
    | nil =>
      obtain ⟨-, hx⟩ := List.append_inj' h rfl
      exact .inl ⟨(List.cons.inj hx).1, hP⟩
    | append_singleton after z =>
      rw [← List.cons_append, ← List.append_assoc] at h
      obtain ⟨rfl, hx⟩ := List.append_inj' h rfl
      obtain ⟨rfl, -⟩ := List.cons.inj hx
      exact .inr ⟨before, after, rfl, hP⟩
  · rintro (⟨rfl, hP⟩ | ⟨before, after, rfl, hP⟩)
    · exact ⟨past, [], rfl, hP⟩
    · exact ⟨before, after ++ [x], by simp, hP⟩

theorem latest_concat_iff : Latest (past ++ [x]) name r ↔
    (x = .register r ∧ r.name = name) ∨ (¬x.Concerns name ∧ Latest past name r) := by
  rw [Latest, concat_split_iff]
  constructor
  · rintro (⟨hx, hname, -⟩ | ⟨before, after, hpast, hname, hafter⟩)
    · exact .inl ⟨hx, hname⟩
    · rw [List.forall_mem_append, List.forall_mem_singleton] at hafter
      exact .inr ⟨hafter.2, before, after, hpast, hname, hafter.1⟩
  · rintro (⟨hx, hname⟩ | ⟨hx, before, after, hpast, hname, hafter⟩)
    · exact .inl ⟨hx, hname, by simp⟩
    · refine .inr ⟨before, after, hpast, hname, ?_⟩
      rw [List.forall_mem_append, List.forall_mem_singleton]
      exact ⟨hafter, hx⟩

theorem live_concat_iff : Live (past ++ [x]) name ↔
    (∃ r, x = .register r ∧ r.name = name) ∨ (x ≠ .remove name ∧ Live past name) := by
  simp only [Live, concat_split_iff]
  constructor
  · rintro ⟨r, ⟨hx, hname, -⟩ | ⟨before, after, hpast, hname, hafter⟩⟩
    · exact .inl ⟨r, hx, hname⟩
    · rw [List.mem_append, List.mem_singleton, not_or] at hafter
      exact .inr ⟨fun hx => hafter.2 hx.symm, r, before, after, hpast, hname, hafter.1⟩
  · rintro (⟨r, hx, hname⟩ | ⟨hx, r, before, after, hpast, hname, hafter⟩)
    · exact ⟨r, .inl ⟨hx, hname, by simp⟩⟩
    · refine ⟨r, .inr ⟨before, after, hpast, hname, ?_⟩⟩
      rw [List.mem_append, List.mem_singleton, not_or]
      exact ⟨hafter, fun h => hx h.symm⟩

theorem not_latest_nil : ¬Latest [] name r := by
  rintro ⟨before, after, h, -⟩
  simp at h

theorem not_live_nil : ¬Live [] name := by
  rintro ⟨r, before, after, h, -⟩
  simp at h

/-- A name has one latest registration at most. -/
theorem Latest.unique {r' : Registration} (h : Latest past name r) (h' : Latest past name r') :
    r = r' := by
  induction past using List.reverseRecOn with
  | nil => exact absurd h not_latest_nil
  | append_singleton past x ih =>
    obtain ⟨rfl, hname⟩ | ⟨hx, hpast⟩ := latest_concat_iff.1 h
    · obtain ⟨hx', -⟩ | ⟨hx', -⟩ := latest_concat_iff.1 h'
      · exact Request.register.inj hx'
      · exact absurd hname hx'
    · obtain ⟨rfl, hname'⟩ | ⟨-, hpast'⟩ := latest_concat_iff.1 h'
      · exact absurd hname' hx
      · exact ih hpast hpast'

/-- A name that is live has a latest registration. -/
theorem live_iff_exists_latest : Live past name ↔ ∃ r, Latest past name r := by
  induction past using List.reverseRecOn with
  | nil => exact iff_of_false not_live_nil fun ⟨r, h⟩ => not_latest_nil h
  | append_singleton past x ih =>
    rw [live_concat_iff, ih]
    simp only [latest_concat_iff, exists_or, exists_and_left]
    cases x with
    | register r => by_cases hname : r.name = name <;> simp [Request.Concerns, hname]
    | remove other => simp [Request.Concerns]
    | _ => simp [Request.Concerns]

/-- A request hands out the connection of one registration at most. -/
theorem Handles.unique {k : Nat} {r' : Registration} (h : Handles past k r)
    (h' : Handles past k r') : r = r' := by
  obtain hr | ⟨name, hname, hr⟩ := h <;> obtain hr' | ⟨name', hname', hr'⟩ := h'
  · exact Request.register.inj (Option.some.inj (hr.symm.trans hr'))
  · simp [hr] at hname'
  · simp [hr'] at hname
  · obtain rfl : name = name' := by
      obtain hname | hname := hname <;> rw [hname] at hname' <;> simpa using hname'
    exact hr.unique hr'

/-- A derivation hands out no connection of its own. -/
theorem Handles.not_derive {k source : Nat} {d : Derivation} (h : Handles past k r) :
    past[k]? ≠ some (.derive source d) := by
  intro hderive
  obtain hr | ⟨name, hname, -⟩ := h
  · simp [hr] at hderive
  · simp [hderive] at hname

/-- What a request handed out goes back to one executor at most. -/
theorem Origin.unique {k : Nat} {e e' : Executor} (h : Origin past k e) (h' : Origin past k e') :
    e = e' := by
  induction h with
  | handle h =>
    cases h' with
    | handle h' => rw [h.unique h']
    | keep h' | change h' => exact absurd h' h.not_derive
  | keep h hd _ ih =>
    cases h' with
    | handle h' => exact absurd h h'.not_derive
    | keep h' hd' hsource =>
      cases h.symm.trans h'
      exact ih hsource
    | change h' hd' =>
      cases h.symm.trans h'
      simp [hd] at hd'
  | change h hd =>
    cases h' with
    | handle h' => exact absurd h h'.not_derive
    | keep h' hd' =>
      cases h.symm.trans h'
      simp [hd] at hd'
    | change h' hd' =>
      cases h.symm.trans h'
      exact Option.some.inj (hd.symm.trans hd')

end Histories

/-! ## The registry of a session -/

theorem Registry.get?_register (registry : Registry) (name other : String) (e : Executor)
    (verbose : Bool) : (registry.register name e verbose).1.connections.get? other
      = if other = name then some (Connection.ofExecutor name e verbose)
        else registry.connections.get? other := by
  rw [register]
  split
  · next h => rw [h, Keyed.get?_insert_self]
  · next h => rw [Keyed.get?_insert_of_ne _ h]

theorem Registry.get?_remove (registry : Registry) (name other : String) :
    (registry.remove name).1.connections.get? other
      = if other = name then none else registry.connections.get? other := by
  rw [remove]
  split
  · split
    · next h => rw [h, Keyed.get?_erase_self]
    · next h => rw [Keyed.get?_erase_of_ne _ h]
  · next hnone =>
    split
    · next h => rw [h, hnone]
    · rfl

namespace Session

variable {past : List Request} {name : String}

/-- The registry holds the latest registration of each name that was not removed since. -/
theorem get?_after {c : Connection} :
    (after past).registry.connections.get? name = some c ↔
      ∃ r, Latest past name r ∧ r.connection = c := by
  induction past using List.reverseRecOn with
  | nil => exact iff_of_false nofun fun ⟨r, h, _⟩ => not_latest_nil h
  | append_singleton past x ih =>
    simp only [after_concat, step, latest_concat_iff]
    cases x with
    | register r =>
      rw [registryAfter, Registry.get?_register]
      by_cases h : name = r.name
      · simp [Request.Concerns, h, and_assoc, Registration.connection]
      · have hother : ∀ r', ¬(r = r' ∧ r'.name = name) := by
          rintro _ ⟨rfl, hname⟩
          exact h hname.symm
        simp [Request.Concerns, h, Ne.symm h, hother, ih]
    | remove other =>
      rw [registryAfter, Registry.get?_remove]
      by_cases h : name = other
      · simp [Request.Concerns, h]
      · simp [Request.Concerns, h, Ne.symm h, ih]
    | _ => exact ih.trans (by simp [Request.Concerns])

/-! ## What a session handed out -/

theorem length_outlets_after (past : List Request) :
    (after past).outlets.length = past.length := by
  induction past using List.reverseRecOn with
  | nil => rfl
  | append_singleton past x ih => simp [after_concat, step, ih]

theorem lt_length_of_outlet? {k : Nat} {o : Outlet} (h : (after past).outlet? k = some o) :
    k < past.length := by
  rw [← length_outlets_after]
  by_contra hk
  rw [outlet?, List.getElem?_eq_none (Nat.le_of_not_lt hk)] at h
  cases h

/-- Later requests change nothing of what was handed out. -/
theorem outlet?_after_append (later : List Request) {k : Nat} (hk : k < past.length) :
    (after (past ++ later)).outlet? k = (after past).outlet? k := by
  induction later using List.reverseRecOn with
  | nil => rw [List.append_nil]
  | append_singleton later x ih =>
    have hlt : k < (after (past ++ later)).outlets.length := by
      rw [length_outlets_after, List.length_append]
      omega
    rw [← List.append_assoc, after_concat, ← ih, outlet?, step, List.getElem?_append_left hlt]
    rfl

/-- What a request handed out is what it was answered with at its time. -/
theorem outlet?_after {k : Nat} {x : Request} (h : past[k]? = some x) :
    (after past).outlet? k = ((after (past.take k)).reply x).outlet? := by
  obtain ⟨hk, rfl⟩ := List.getElem?_eq_some_iff.1 h
  have hlength : (past.take k).length = k := List.length_take_of_le (Nat.le_of_lt hk)
  have houtlets : (after (past.take k)).outlets.length = k := by
    rw [length_outlets_after, hlength]
  have hlast : (after (past.take k ++ [past[k]])).outlet? k
      = ((after (past.take k)).reply past[k]).outlet? := by
    rw [after_concat, outlet?, step, List.getElem?_append_right (Nat.le_of_eq houtlets), houtlets]
    simp
  have hsplit : past = past.take k ++ [past[k]] ++ past.drop (k + 1) := by simp
  rw [← hlast]
  conv_lhs => rw [hsplit]
  exact outlet?_after_append _ (by rw [List.length_append, hlength]; exact Nat.lt_succ_self k)

end Session

/-! ## Executors of outlets -/

theorem map_toOption_eq_some_iff {ε α β : Type} {x : Except ε α} {f : α → β} {b : β} :
    x.toOption.map f = some b ↔ ∃ a, x = .ok a ∧ f a = b := by
  cases x <;> simp [Except.toOption]

theorem Table.executor_ofConfig {config : TableConfig} {executor : Option Executor} {t : Table}
    (h : Table.ofConfig config executor = .ok t) : t.builder.executor = executor := by
  rw [ofConfig] at h
  split at h
  · cases h
  · cases h
    rfl

/-- A derivation keeps the executor that it does not change. -/
theorem Outlet.executor?_of_derive {o o' : Outlet} {d : Derivation} (h : o.derive? d = some o') :
    o'.executor? = d.executor?.or o.executor? := by
  unfold derive? at h
  split at h
  · cases h
    rfl
  · obtain ⟨t, ht, rfl⟩ := map_toOption_eq_some_iff.1 h
    exact Table.executor_ofConfig ht
  · cases h
    rfl
  · obtain ⟨q, hq, rfl⟩ := map_toOption_eq_some_iff.1 h
    exact Builder.executor_build hq
  · obtain ⟨q, hq, rfl⟩ := map_toOption_eq_some_iff.1 h
    obtain ⟨p, hp, hbuild⟩ := Operation.run_eq_ok_iff.1 hq
    have hsettled := Builder.executor_build hbuild
    rw [(Operation.program_settles hp).2] at hsettled
    exact hsettled
  · obtain ⟨q', hq', rfl⟩ := map_toOption_eq_some_iff.1 h
    exact Query.executor_steps hq'
  · cases h

/-- Whether an outlet leads to an executor through any layers of logging. -/
def Outlet.LeadsTo (o : Outlet) (e : Executor) : Prop :=
  ∃ outer, o.executor? = some outer ∧ outer.name = e.name ∧ outer.respond = e.respond

/-- Whether a run is one call of an executor, with its answer. -/
structure Run.Reaches (r : Run) (e : Executor) (s : Statement) : Prop where
  called : r.calls = [⟨e.name, s⟩]
  answered : r.result = e.respond s

theorem Executor.reaches_run {outer e : Executor} (hname : outer.name = e.name)
    (hrespond : outer.respond = e.respond) (s : Statement) : (outer.run s).Reaches e s where
  called := by rw [calls_run, hname]
  answered := by rw [run_eq, hrespond]

namespace Session

variable {past : List Request}

theorem outlet?_reply_get (s : Session) (name : String) :
    (s.reply (.get name)).outlet?
      = (s.registry.connections.get? name).map Outlet.connection := by
  rw [reply, Registry.get]
  cases s.registry.connections.get? name <;> rfl

theorem outlet?_reply_remove (s : Session) (name : String) :
    (s.reply (.remove name)).outlet?
      = (s.registry.connections.get? name).map Outlet.connection := by
  rw [reply, Registry.remove]
  cases s.registry.connections.get? name <;> rfl

theorem map_get?_after {name : String} {o : Outlet} :
    ((after past).registry.connections.get? name).map Outlet.connection = some o ↔
      ∃ r, Latest past name r ∧ .connection r.connection = o := by
  rw [Option.map_eq_some_iff]
  simp only [get?_after]
  constructor
  · rintro ⟨_, ⟨r, hr, rfl⟩, rfl⟩
    exact ⟨r, hr, rfl⟩
  · rintro ⟨r, hr, rfl⟩
    exact ⟨_, ⟨r, hr, rfl⟩, rfl⟩

theorem outlet?_of_handles {k : Nat} {r : Registration} (h : Handles past k r) :
    (after past).outlet? k = some (.connection r.connection) := by
  obtain h | ⟨name, h | h, hr⟩ := h
  · rw [outlet?_after h]
    rfl
  · rw [outlet?_after h, outlet?_reply_get, map_get?_after]
    exact ⟨r, hr, rfl⟩
  · rw [outlet?_after h, outlet?_reply_remove, map_get?_after]
    exact ⟨r, hr, rfl⟩

theorem leadsTo_connection (r : Registration) :
    (Outlet.connection r.connection).LeadsTo r.executor := by
  obtain ⟨-, hname, hrespond⟩ := Connection.executor_ofExecutor r.name r.executor r.verbose
  exact ⟨_, rfl, hname, hrespond⟩

/-- What is derived goes back to the executor that it changed to, or else to that of its source. -/
theorem exists_origin_of_derive {k source : Nat} {d : Derivation} {o₀ o : Outlet} {e₀ : Executor}
    (hx : past[k]? = some (.derive source d)) (hd : o₀.derive? d = some o)
    (horigin : Origin past source e₀) (hleads : o₀.LeadsTo e₀) :
    ∃ e, Origin past k e ∧ o.LeadsTo e := by
  have hexecutor := Outlet.executor?_of_derive hd
  cases hchange : d.executor? with
  | none =>
    obtain ⟨outer, houter, hname, hrespond⟩ := hleads
    refine ⟨e₀, .keep hx hchange horigin, outer, ?_, hname, hrespond⟩
    rw [hexecutor, hchange, houter]
    rfl
  | some e =>
    refine ⟨e, .change hx hchange, e, ?_, rfl, rfl⟩
    rw [hexecutor, hchange]
    rfl

/-- Everything that was handed out goes back to an executor, and leads to it. -/
theorem exists_origin {k : Nat} {o : Outlet} (h : (after past).outlet? k = some o) :
    ∃ e, Origin past k e ∧ o.LeadsTo e := by
  -- what is derived names an earlier request, so the induction is on the number of the request
  induction k using Nat.strongRecOn generalizing o with
  | ind k ih =>
    have hk := lt_length_of_outlet? h
    obtain ⟨x, hx⟩ : ∃ x, past[k]? = some x := ⟨_, List.getElem?_eq_getElem hk⟩
    rw [outlet?_after hx] at h
    cases x with
    | register r =>
      cases h
      exact ⟨_, .handle (.inl hx), leadsTo_connection r⟩
    | get name =>
      rw [outlet?_reply_get, map_get?_after] at h
      obtain ⟨r, hr, rfl⟩ := h
      exact ⟨_, .handle (.inr ⟨name, .inl hx, hr⟩), leadsTo_connection r⟩
    | remove name =>
      rw [outlet?_reply_remove, map_get?_after] at h
      obtain ⟨r, hr, rfl⟩ := h
      exact ⟨_, .handle (.inr ⟨name, .inr hx, hr⟩), leadsTo_connection r⟩
    | contains name | names | run source s => cases h
    | derive source d =>
      obtain ⟨o₀, ho₀, hd⟩ := Option.bind_eq_some_iff.1 h
      have hsource := lt_length_of_outlet? ho₀
      have hearlier := outlet?_after_append (past.drop k) hsource
      rw [List.take_append_drop, ho₀] at hearlier
      rw [List.length_take_of_le (Nat.le_of_lt hk)] at hsource
      obtain ⟨e₀, horigin, hleads⟩ := ih source hsource hearlier
      exact exists_origin_of_derive hx hd horigin hleads

end Session

/-! ## Answers of the registry -/

namespace Registry

variable (registry : Registry)

theorem mem_names_iff {name : String} :
    name ∈ registry.names ↔ ∃ c, registry.connections.get? name = some c := by
  rw [names, List.mem_mergeSort, Keyed.mem_keys_iff]

theorem pairwise_names : registry.names.Pairwise (· < ·) := by
  have hsorted : registry.names.Pairwise fun a b => (!decide (b < a)) = true := by
    refine List.pairwise_mergeSort (fun a b c hab hbc => ?_) (fun a b => ?_) _
    · simp only [Bool.not_eq_true', decide_eq_false_iff_not, String.not_lt] at hab hbc ⊢
      exact String.le_trans hab hbc
    · simp only [Bool.or_eq_true, Bool.not_eq_true', decide_eq_false_iff_not, String.not_lt]
      exact String.le_total a b
  have hnodup : registry.names.Nodup :=
    (List.mergeSort_perm _ _).nodup_iff.2 registry.connections.nodup
  refine (hsorted.and hnodup).imp fun {a b} h => ?_
  obtain ⟨hle, hne⟩ := h
  simp only [Bool.not_eq_true', decide_eq_false_iff_not, String.not_lt] at hle
  exact String.not_le.1 fun hge => hne (String.le_antisymm hle hge)

theorem get_eq_ok_iff {name : String} {c : Connection} :
    registry.get name = .ok c ↔ registry.connections.get? name = some c := by
  rw [get]
  cases registry.connections.get? name <;> simp

end Registry

namespace Session

/-- What a session does after a history. -/
structure Routes (past : List Request) : Prop where
  /-- A name leads to its latest registration that was not removed since. -/
  got : ∀ name c, (after past).reply (.get name) = .got (.ok c) ↔
    ∃ r, Latest past name r ∧ r.connection = c
  found : ∀ name, (∃ c, (after past).reply (.get name) = .got (.ok c)) ↔ Live past name
  missing : ∀ name, ¬Live past name →
    (after past).reply (.get name) = .got (.error (.connectionUnknown name))
  contained : ∀ name, (after past).reply (.contains name) = .contained true ↔ Live past name
  listed : ∃ names, (after past).reply .names = .listed names ∧ names.Pairwise (· < ·) ∧
    ∀ name, name ∈ names ↔ Live past name
  /-- A registration is logged, and with it whether the name was taken. -/
  registered : ∀ r, ∃ replaced, (after past).reply (.register r) = .registered r.connection
      ⟨.info, .connections, [("connection", r.name), ("replaced", replaced),
        ("message", "database registered")]⟩ ∧
    (Live past r.name → replaced = "true") ∧ (¬Live past r.name → replaced = "false")
  /-- A removal is logged if there was something to remove, and not otherwise. -/
  removed : ∀ name, Live past name → ∃ c, (after past).reply (.remove name) = .removed (some c)
      [⟨.info, .connections, [("connection", name), ("message", "database removed")]⟩] ∧
    ∃ r, Latest past name r ∧ r.connection = c
  unremoved : ∀ name, ¬Live past name → (after past).reply (.remove name) = .removed none []
  /-- A connection that was handed out stays the one of its registration, under its name. -/
  handed : ∀ k r, Handles past k r →
    (after past).outlet? k = some (.connection r.connection) ∧ r.connection.name = r.name
  traced : ∀ k o, (after past).outlet? k = some o → ∃! e, Origin past k e
  /-- A statement sent through a connection reaches the executor that it goes back to. -/
  sent : ∀ k c e, (after past).outlet? k = some (.connection c) → Origin past k e →
    ∀ s, ∃ run, (after past).reply (.run k (some s)) = .ran (some (s, run)) ∧ run.Reaches e s
  /-- So does the statement of a query. -/
  executed : ∀ k q e, (after past).outlet? k = some (.query q) → Origin past k e →
    ∃ run, (after past).reply (.run k none) = .ran (some (q.statement, run)) ∧
      run.Reaches e q.statement
  /-- No later request changes what runs through an outlet. -/
  kept : ∀ k later s, k < past.length →
    (after (past ++ later)).reply (.run k s) = (after past).reply (.run k s)

variable {past : List Request} {name : String}

theorem live_iff_get?_after :
    Live past name ↔ ∃ c, (after past).registry.connections.get? name = some c := by
  rw [live_iff_exists_latest]
  simp only [get?_after]
  constructor
  · rintro ⟨r, hr⟩
    exact ⟨_, r, hr, rfl⟩
  · rintro ⟨_, r, hr, -⟩
    exact ⟨r, hr⟩

theorem contains_after_iff : (after past).registry.contains name = true ↔ Live past name := by
  rw [Registry.contains, Keyed.contains, decide_eq_true_iff, Keyed.mem_keys_iff,
    live_iff_get?_after]

/-- A name that is not live has no connection. -/
theorem get?_after_eq_none (h : ¬Live past name) :
    (after past).registry.connections.get? name = none := by
  rwa [live_iff_get?_after, not_exists, ← Option.eq_none_iff_forall_ne_some] at h

theorem reply_get_iff {c : Connection} :
    (after past).reply (.get name) = .got (.ok c) ↔
      (after past).registry.connections.get? name = some c := by
  rw [← Registry.get_eq_ok_iff, reply, Reply.got.injEq]

theorem leadsTo_of_origin {k : Nat} {o : Outlet} {e : Executor}
    (ho : (after past).outlet? k = some o) (he : Origin past k e) : o.LeadsTo e := by
  obtain ⟨e', he', hleads⟩ := exists_origin ho
  rwa [he.unique he']

/-- Whatever the requests of a session were, names lead to their latest registrations, and all that
was handed out keeps to the executor that it goes back to. -/
theorem routes (past : List Request) : Routes past where
  got name c := reply_get_iff.trans get?_after
  found name := by
    simp only [reply_get_iff]
    exact live_iff_get?_after.symm
  missing name h := by rw [reply, Registry.get, get?_after_eq_none h]
  contained name := by rw [reply, Reply.contained.injEq, contains_after_iff]
  listed := by
    refine ⟨_, rfl, Registry.pairwise_names _, fun name => ?_⟩
    rw [Registry.mem_names_iff, live_iff_get?_after]
  registered r := by
    refine ⟨_, rfl, fun h => ?_, fun h => ?_⟩
    · rw [if_pos (contains_after_iff.2 h)]
    · rw [if_neg (mt contains_after_iff.1 h)]
  removed name h := by
    obtain ⟨c, hc⟩ := live_iff_get?_after.1 h
    refine ⟨c, ?_, get?_after.1 hc⟩
    rw [reply, Registry.remove, hc]
    rfl
  unremoved name h := by rw [reply, Registry.remove, get?_after_eq_none h]
  handed k r h := ⟨outlet?_of_handles h, rfl⟩
  traced k o h := by
    obtain ⟨e, he, -⟩ := exists_origin h
    exact ⟨e, he, fun e' he' => he'.unique he⟩
  sent k c e hc he s := by
    obtain ⟨outer, houter, hname, hrespond⟩ := leadsTo_of_origin hc he
    cases houter
    refine ⟨_, ?_, Executor.reaches_run hname hrespond s⟩
    rw [reply, hc]
    rfl
  executed k q e hq he := by
    obtain ⟨outer, houter, hname, hrespond⟩ := leadsTo_of_origin hq he
    refine ⟨_, ?_, Executor.reaches_run hname hrespond q.statement⟩
    rw [reply, hq, Option.bind_some, Outlet.run?, Query.execute]
    rw [Outlet.executor?] at houter
    rw [houter]
  kept k later s hk := by
    rw [reply, reply, outlet?_after_append later hk]

/-- An executor that answers every statement with no rows. -/
def store (name : String) : Executor := .base name fun _ => .ok (.rows [])

/-- A name that is given to two more executors while a builder is still in use, the second time
after a removal. -/
def renamed : List Request :=
  [.register ⟨"main", store "old", true⟩, .derive 0 .builder,
   .register ⟨"main", store "spare", true⟩, .remove "main",
   .register ⟨"main", store "new", false⟩,
   .derive 1 (.program (.count "id" none) [.source "users" none]), .get "main"]

/-- The builder stays with the old executor, and the name leads to the newest one. The log says that
the second registration replaced the first, that the name was removed, and that the third replaced
none; a second removal would not be logged. -/
theorem routes_renamed :
    (∃ statement run, (after renamed).reply (.run 5 none) = .ran (some (statement, run)) ∧
      run.Reaches (store "old") statement) ∧
    (∃ run, (after renamed).reply (.run 6 (some ⟨"SELECT 1", []⟩))
        = .ran (some (⟨"SELECT 1", []⟩, run)) ∧
      run.Reaches (store "new") ⟨"SELECT 1", []⟩) ∧
    (∃ c, (after (renamed.take 2)).reply (.register ⟨"main", store "spare", true⟩)
      = .registered c ⟨.info, .connections, [("connection", "main"), ("replaced", "true"),
          ("message", "database registered")]⟩) ∧
    (∃ c, (after (renamed.take 3)).reply (.remove "main") = .removed (some c)
      [⟨.info, .connections, [("connection", "main"), ("message", "database removed")]⟩]) ∧
    (after (renamed.take 4)).reply (.remove "main") = .removed none [] ∧
    ∃ c, (after (renamed.take 4)).reply (.register ⟨"main", store "new", false⟩)
      = .registered c ⟨.info, .connections, [("connection", "main"), ("replaced", "false"),
          ("message", "database registered")]⟩ := by
  have hfirst : Handles renamed 0 ⟨"main", store "old", true⟩ := .inl rfl
  have hold : Origin renamed 5 (store "old") := .keep rfl rfl (.keep rfl rfl (.handle hfirst))
  have hlatest : Latest (renamed.take 6) "main" ⟨"main", store "new", false⟩ :=
    ⟨renamed.take 4, [.derive 1 (.program (.count "id" none) [.source "users" none])], rfl, rfl,
      by simp [Request.Concerns]⟩
  have hlast : Handles renamed 6 ⟨"main", store "new", false⟩ :=
    .inr ⟨"main", .inl rfl, hlatest⟩
  have hnew : Origin renamed 6 (store "new") := .handle hlast
  have htaken : Live (renamed.take 2) "main" := ⟨_, [], [.derive 0 .builder], rfl, rfl, by simp⟩
  have hspare : Live (renamed.take 3) "main" := ⟨_, renamed.take 2, [], rfl, rfl, by simp⟩
  have hfree : ¬Live (renamed.take 3 ++ [.remove "main"]) "main" := by
    rw [live_concat_iff]
    simp
  obtain ⟨run, hrun, hreaches⟩ := (routes renamed).executed 5 _ _ rfl hold
  refine ⟨⟨_, run, hrun, hreaches⟩, (routes renamed).sent 6 _ _ rfl hnew _, ?_, ?_, ?_, ?_⟩
  · obtain ⟨replaced, hreply, hyes, -⟩ :=
      (routes (renamed.take 2)).registered ⟨"main", store "spare", true⟩
    exact ⟨_, hyes htaken ▸ hreply⟩
  · obtain ⟨c, hreply, -⟩ := (routes (renamed.take 3)).removed "main" hspare
    exact ⟨c, hreply⟩
  · exact (routes (renamed.take 4)).unremoved "main" hfree
  · obtain ⟨replaced, hreply, -, hno⟩ :=
      (routes (renamed.take 4)).registered ⟨"main", store "new", false⟩
    exact ⟨_, hno hfree ▸ hreply⟩

end Session

end Sqlwright
