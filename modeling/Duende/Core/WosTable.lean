import Duende.Delivery
import Duende.Trans.Run

/-!
# The process table of the WOS adapter

Where `wos-ctl` is at hand, the adapter of the core has it spawn, signal and renice the processes
and keeps a table of its own. `replay` builds the table that the commands accepted by `wos-ctl`
describe; `table_replays` says that this is the table of the adapter.
-/

namespace Duende.Core.Wos

open Trans

/-- The adapter, and `NEXT_PID`. -/
structure Session where
  adapter : WosAdapter
  nextPid : UInt32

/-- `none` is the failed assertion. -/
def WosAdapter.withPriority (priority : UInt8) : Option WosAdapter :=
  if priority ≤ 7 then some ⟨priority, ∅⟩ else none

/-- Give `wos-ctl` an order, if it is there, before the table is written. -/
def tell {σ α : Type} (args : List Text) (failed : String → Core.PlatformError) (failure : String)
    (s : σ) (written : σ × Except Core.PlatformError α) : Attempt σ α :=
  .command "wos-ctl" ["--version".toList] fun version =>
    if wosCtlAvailable version then
      .command "wos-ctl" args fun
        | .error e => .done (s, .error (failed s!"Failed to execute wos-ctl: {e}"))
        | .ok output =>
          if !output.success then
            .done (s, .error (failed s!"{failure}{String.ofList output.stderr}"))
          else .done written
    else .done written

/-- The end of `spawn`, once WOS is known to be there. -/
def spawnIn (s : Session) (id : DaemonId) (name : String) : Attempt Session DaemonHandle :=
  let pid := s.nextPid
  let s' := { s with nextPid := pid + 1 }
  let stored := s.adapter.spawn id name pid
  tell ["spawn".toList, "--name".toList, name.toList, "--priority".toList,
      decimal s.adapter.defaultPriority.toNat, "--pid".toList, decimal pid.toNat]
    .spawnFailed "wos-ctl spawn failed: " s' ({ s' with adapter := stored.1 }, .ok stored.2)

/-- `spawn`; `env` is what `is_wos_environment` returns. -/
def spawnCtl (env : Bool) (s : Session) (id : DaemonId) (name : String) :
    Attempt Session DaemonHandle :=
  if env then spawnIn s id name
  else
    .command "wos-ctl" ["--version".toList] fun version =>
      if wosCtlAvailable version then spawnIn s id name
      else .done (s, .error (.spawnFailed ("WOS environment not detected and wos-ctl not found. " ++
        "Run inside WOS or install wos-ctl to manage WOS processes remotely.")))

def recordPriority (a : WosAdapter) (pid : UInt32) (priority : UInt8) : WosAdapter :=
  match a.processes.lookup pid with
  | some p => { a with processes := a.processes.insert pid { p with priority := priority } }
  | none => a

def setPriority (a : WosAdapter) (pid : UInt32) (priority : UInt8) : Attempt WosAdapter Unit :=
  if priority > 7 then .done (a, .error (.config "Priority must be 0-7"))
  else
    tell ["renice".toList, "--pid".toList, decimal pid.toNat, "--priority".toList,
        decimal priority.toNat]
      .spawnFailed "wos-ctl renice failed: " a (recordPriority a pid priority, .ok ())

/-- The calls that write the table. -/
inductive Request where
  | spawn (env : Bool) (id : DaemonId) (name : String)
  | signal (h : DaemonHandle) (sig : Signal)
  | setPriority (pid : UInt32) (priority : UInt8)

def Request.perform (s : Session) : Request → Attempt Session Unit
  | spawn env id name => (spawnCtl env s id name).map fun r => (r.1, r.2.map fun _ => ())
  | signal h sig => (signalCtl s.adapter h sig).map fun r => ({ s with adapter := r.1 }, r.2)
  | setPriority pid priority =>
    (Wos.setPriority s.adapter pid priority).map fun r => ({ s with adapter := r.1 }, r.2)

/-- A request, with its dialogue with the system. -/
abbrev Exchange := Request × Dialogue Question.Answer

def Session.step (s : Session) (c : Exchange) : Option Session :=
  ((c.1.perform s).feed c.2).map Prod.fst

/-! ## Orders -/

abbrev Table := Finmap fun _ : UInt32 => ProcessInfo

/-- What `wos-ctl` is told to do. -/
inductive Order where
  | spawn (pid : UInt32) (name : String) (priority : UInt8)
  | signal (pid : UInt32) (sig : Signal)
  | renice (pid : UInt32) (priority : UInt8)
  deriving DecidableEq

/-- Change an entry, if it is there. -/
def Table.modify (t : Table) (pid : UInt32) (f : ProcessInfo → ProcessInfo) : Table :=
  match t.lookup pid with
  | some p => t.insert pid (f p)
  | none => t

def Order.apply (t : Table) : Order → Table
  | spawn pid name priority => t.insert pid ⟨pid, 1, name, priority, .running⟩
  | signal pid sig => Table.modify t pid fun p => { p with state := p.state.signal sig }
  | renice pid priority => Table.modify t pid fun p => { p with priority := priority }

def replay (os : List Order) : Table := os.foldl Order.apply ∅

/-- Known options and nothing else. -/
def optionsOf (os : List String) (args : List Text) : Option (List Argv.Opt) :=
  match Argv.parse (valued os) args with
  | some (opts, []) => some opts
  | _ => none

def numberOf (o : String) (opts : List Argv.Opt) : Option Nat := (lastOf o opts).bind parseNat

/-- How `wos-ctl` reads its arguments. -/
def readOrder : List Text → Option Order
  | [] => none
  | sub :: args =>
    if sub = "spawn".toList then
      (optionsOf ["--name", "--priority", "--pid"] args).bind fun opts =>
        (numberOf "--pid" opts).bind fun pid => (lastOf "--name" opts).bind fun name =>
          (numberOf "--priority" opts).map fun n => .spawn (.ofNat pid) (.ofList name) (.ofNat n)
    else if sub = "signal".toList then
      (optionsOf ["--pid", "--signal"] args).bind fun opts =>
        (numberOf "--pid" opts).bind fun pid => (lastOf "--signal" opts).bind fun w =>
          (signalOf (fun sig => decimal (signalNumber sig)) w).map fun sig =>
            .signal (.ofNat pid) sig
    else if sub = "renice".toList then
      (optionsOf ["--pid", "--priority"] args).bind fun opts =>
        (numberOf "--pid" opts).bind fun pid =>
          (numberOf "--priority" opts).map fun n => .renice (.ofNat pid) (.ofNat n)
    else none

/-- The order that a question carries, if `wos-ctl` has accepted it. -/
def orderOf (p : Σ q : Question, q.Answer) : Option Order :=
  if accepts p then readCommand (.ofText "wos-ctl".toList) readOrder p.1 else none

def orders (d : Dialogue Question.Answer) : List Order := d.filterMap orderOf

abbrev version : Question := .command ⟨.ofText "wos-ctl".toList, ["--version".toList]⟩

/-- Whenever it is asked for its version, `wos-ctl` answers. -/
def Managed (d : Dialogue Question.Answer) : Prop := ∀ p ∈ d, p.1 = version → accepts p = true

/-! ## The orders are read as they are meant -/

/-- The options in their order, each with its value. -/
def given (os : List String) (vs : List Text) : List Argv.Opt :=
  (os.zip vs).map fun o => (o.1.toList, some o.2)

theorem optionsOf_given {os : List String} (vs : List Text)
    (hos : ∀ o ∈ os, Argv.isOption o.toList = true) :
    optionsOf os (Argv.words (given os vs)) = some (given os vs) := by
  have hparse : Argv.parse (valued os) (Argv.words (given os vs) ++ []) = _ :=
    Argv.parse_append fun o ho => by
      obtain ⟨⟨o, v⟩, hzip, rfl⟩ := List.mem_map.1 ho
      have hmem := (List.of_mem_zip hzip).1
      exact ⟨hos o hmem, valued_of_mem (List.mem_map_of_mem hmem)⟩
  rw [List.append_nil] at hparse
  rw [optionsOf, hparse]
  simp [Argv.parse]

theorem lastOf_given_ne {o o' : String} {os : List String} {v : Text} {vs : List Text}
    (h : o' ≠ o) : lastOf o (given (o' :: os) (v :: vs)) = lastOf o (given os vs) :=
  lastOf_cons_ne (fun he => h (String.toList_inj.1 he)) _ _

theorem lastOf_given_self {o : String} {os : List String} {v : Text} {vs : List Text}
    (h : o ∉ os) : lastOf o (given (o :: os) (v :: vs)) = some v := by
  refine lastOf_cons_self ?_ v
  refine List.getLast?_eq_none_iff.2 (List.filterMap_eq_nil_iff.2 fun p hp => if_neg ?_)
  obtain ⟨⟨o', v'⟩, hzip, rfl⟩ := List.mem_map.1 hp
  exact fun he => h (String.toList_inj.1 he ▸ (List.of_mem_zip hzip).1)

theorem readOrder_spawn (pid : UInt32) (name : String) (priority : UInt8) :
    readOrder ["spawn".toList, "--name".toList, name.toList, "--priority".toList,
      decimal priority.toNat, "--pid".toList, decimal pid.toNat] =
        some (.spawn pid name priority) := by
  have hopts : optionsOf ["--name", "--priority", "--pid"] ["--name".toList, name.toList,
      "--priority".toList, decimal priority.toNat, "--pid".toList, decimal pid.toNat] = _ :=
    optionsOf_given [name.toList, decimal priority.toNat, decimal pid.toNat] (by decide)
  rw [readOrder, if_pos rfl, hopts]
  simp (disch := decide) only [Option.bind_some, numberOf, lastOf_given_ne, lastOf_given_self,
    parseNat_decimal, Option.map_some, String.ofList_toList, UInt32.ofNat_toNat, UInt8.ofNat_toNat]

theorem readOrder_signal (pid : UInt32) (sig : Signal) :
    readOrder ["signal".toList, "--pid".toList, decimal pid.toNat, "--signal".toList,
      decimal (signalNumber sig)] = some (.signal pid sig) := by
  have hopts : optionsOf ["--pid", "--signal"] ["--pid".toList, decimal pid.toNat,
      "--signal".toList, decimal (signalNumber sig)] = _ :=
    optionsOf_given [decimal pid.toNat, decimal (signalNumber sig)] (by decide)
  have hsig : signalOf (fun sig => decimal (signalNumber sig)) (decimal (signalNumber sig)) =
      some sig := signalOf_word linuxWord_injective sig
  rw [readOrder, if_neg (by decide), if_pos rfl, hopts]
  simp (disch := decide) only [Option.bind_some, numberOf, lastOf_given_ne, lastOf_given_self,
    parseNat_decimal, hsig, Option.map_some, UInt32.ofNat_toNat]

theorem readOrder_renice (pid : UInt32) (priority : UInt8) :
    readOrder ["renice".toList, "--pid".toList, decimal pid.toNat, "--priority".toList,
      decimal priority.toNat] = some (.renice pid priority) := by
  have hopts : optionsOf ["--pid", "--priority"] ["--pid".toList, decimal pid.toNat,
      "--priority".toList, decimal priority.toNat] = _ :=
    optionsOf_given [decimal pid.toNat, decimal priority.toNat] (by decide)
  rw [readOrder, if_neg (by decide), if_neg (by decide), if_pos rfl, hopts]
  simp (disch := decide) only [Option.bind_some, numberOf, lastOf_given_ne, lastOf_given_self,
    parseNat_decimal, Option.map_some, UInt32.ofNat_toNat, UInt8.ofNat_toNat]

/-! ## What a request does -/

/-- The order that a request amounts to. -/
def Request.order (s : Session) : Request → Option Order
  | spawn _ _ name => some (.spawn s.nextPid name s.adapter.defaultPriority)
  | signal h sig => h.pid.map fun pid => .signal pid sig
  | setPriority pid priority => some (.renice pid priority)

def Request.isSpawn : Request → Bool
  | spawn _ _ _ => true
  | _ => false

/-- The priorities that an order speaks of are those of the scheduler. -/
def Order.Legal : Order → Prop
  | spawn _ _ priority | renice _ priority => priority ≤ 7
  | signal _ _ => True

/-- What a request leaves. Nothing is written, and no order was accepted; or the order that the
request amounts to is written, and either `wos-ctl` has accepted this order alone or it did not
answer. -/
structure Kept (s : Session) (req : Request) (d : Dialogue Question.Answer)
    (r : Session × Except Core.PlatformError Unit) : Prop where
  priority : r.1.adapter.defaultPriority = s.adapter.defaultPriority
  next : r.1.nextPid = s.nextPid ∨ req.isSpawn = true ∧ r.1.nextPid = s.nextPid + 1
  table :
    match r.2 with
    | .error _ => r.1.adapter.processes = s.adapter.processes ∧ orders d = []
    | .ok () => ∃ o, req.order s = some o ∧ (s.adapter.defaultPriority ≤ 7 → o.Legal) ∧
        (∀ pid name n, o = .spawn pid name n → pid = s.nextPid ∧ r.1.nextPid = s.nextPid + 1) ∧
        r.1.adapter.processes = o.apply s.adapter.processes ∧ (orders d = [o] ∨ ¬ Managed d)

variable {s s' : Session} {d : Dialogue Question.Answer} {o : Order}

theorem orderOf_version (answer : version.Answer) : orderOf ⟨version, answer⟩ = none := by
  unfold orderOf
  split
  · exact (readCommand_self _).trans (by decide)
  · rfl

theorem orders_snoc (d : Dialogue Question.Answer) (p : Σ q : Question, q.Answer) :
    orders (d ++ [p]) = orders d ++ (orderOf p).toList := by
  unfold orders
  rw [List.filterMap_append]
  cases h : orderOf p <;> simp [h]

theorem ensures_tell {σ α : Type} {args : List Text} {failed : String → Core.PlatformError}
    {failure : String} {s : σ} {written : σ × Except Core.PlatformError α}
    {Φ : Dialogue Question.Answer → σ × Except Core.PlatformError α → Prop}
    (hread : readOrder args = some o)
    (hfail : ∀ d' e, orders d' = orders d → Φ d' (s, .error e))
    (hdone : ∀ d', orders d' = orders d ++ [o] ∨ ¬ Managed d' → Φ d' written) :
    (tell args failed failure s written).Ensures Φ d := by
  refine fun answer : version.Answer => ?_
  have hversion : orders (d ++ [⟨version, answer⟩]) = orders d := by
    rw [orders_snoc, orderOf_version]
    exact List.append_nil _
  refine Ask.ensures_ite.2 ⟨fun _ ran => ?_, fun hv => ?_⟩
  · -- the command is given
    have hgiven : ∀ p : (Σ q : Question, q.Answer),
        p.1 = .command ⟨.ofText "wos-ctl".toList, args⟩ →
        orders (d ++ [⟨version, answer⟩] ++ [p]) =
          orders d ++ (if accepts p then some o else none).toList := by
      intro p hp
      rw [orders_snoc, hversion, orderOf, hp, readCommand_self, hread]
    cases ran with
    | error e => exact hfail _ _ ((hgiven _ rfl).trans (List.append_nil _))
    | ok output =>
      have hout := hgiven ⟨.command ⟨_, args⟩, (.ok output : Ran)⟩ rfl
      simp only [accepts] at hout
      refine Ask.ensures_ite.2 ⟨fun hs => hfail _ _ (hout.trans ?_), fun hs => hdone _ (.inl ?_)⟩
      · simp only [Bool.not_eq_true'] at hs
        simp only [hs, Bool.false_eq_true, if_false, Option.toList_none, List.append_nil]
      · simp only [Bool.not_eq_true', Bool.not_eq_false] at hs
        simpa only [hs, if_true, Option.toList_some] using hout
  · refine hdone _ (.inr fun hm => hv ?_)
    have hav : accepts ⟨version, answer⟩ = true :=
      hm _ (List.mem_append_right _ List.mem_cons_self) rfl
    cases answer <;> exact hav

theorem modify_eq (a : WosAdapter) (pid : UInt32) (f : ProcessInfo → ProcessInfo) :
    (match a.processes.lookup pid with
      | some p => { a with processes := a.processes.insert pid (f p) }
      | none => a) = { a with processes := Table.modify a.processes pid f } := by
  unfold Table.modify
  split <;> rfl

theorem record_eq (a : WosAdapter) (pid : UInt32) (sig : Signal) : record a pid sig =
    { a with processes := (Order.signal pid sig).apply a.processes } :=
  modify_eq a pid fun p => { p with state := p.state.signal sig }

theorem recordPriority_eq (a : WosAdapter) (pid : UInt32) (priority : UInt8) :
    recordPriority a pid priority =
      { a with processes := (Order.renice pid priority).apply a.processes } :=
  modify_eq a pid fun p => { p with priority := priority }

theorem signalCtl_eq (a : WosAdapter) (h : DaemonHandle) (sig : Signal) : signalCtl a h sig =
    match h.pid with
    | none => .done (a, .error invalidHandle)
    | some pid => tell ["signal".toList, "--pid".toList, decimal pid.toNat, "--signal".toList,
        decimal (signalNumber sig)] .signalFailed "wos-ctl signal failed: " a
        (record a pid sig, .ok ()) := rfl

theorem spawnIn_kept (env : Bool) (id : DaemonId) (name : String) (hd : orders d = []) :
    (spawnIn s id name).Ensures
      (fun d r => Kept s (.spawn env id name) d (r.1, r.2.map fun _ => ())) d := by
  refine ensures_tell (readOrder_spawn _ _ _) (fun d' e h => ?_) (fun d' h => ?_)
  · exact ⟨rfl, .inr ⟨rfl, rfl⟩, rfl, h.trans hd⟩
  · rw [hd] at h
    refine ⟨rfl, .inr ⟨rfl, rfl⟩, _, rfl, fun hp => hp, fun pid name n ho => ?_, rfl, h⟩
    cases ho
    exact ⟨rfl, rfl⟩

/-- **What a request does.** -/
theorem perform_kept (s : Session) (req : Request) : (req.perform s).Ensures (Kept s req) [] := by
  cases req with
  | spawn env id name =>
    refine Ask.ensures_map.2 ?_
    unfold spawnCtl
    refine Ask.ensures_ite.2 ⟨fun _ => spawnIn_kept env id name rfl, fun _ version => ?_⟩
    have hversion : orders [⟨Wos.version, version⟩] = [] := by
      rw [orders, List.filterMap_cons, orderOf_version]
      rfl
    refine Ask.ensures_ite.2 ⟨fun _ => spawnIn_kept env id name hversion, fun _ => ?_⟩
    exact ⟨rfl, .inl rfl, rfl, hversion⟩
  | signal h sig =>
    refine Ask.ensures_map.2 ?_
    rw [signalCtl_eq]
    cases hpid : h.pid with
    | none => exact ⟨rfl, .inl rfl, rfl, rfl⟩
    | some pid =>
      refine ensures_tell (readOrder_signal pid sig) (fun d' e h => ?_) (fun d' h => ?_)
      · exact ⟨rfl, .inl rfl, rfl, h⟩
      · rw [record_eq]
        refine ⟨rfl, .inl rfl, .signal pid sig, ?_, fun _ => trivial, nofun, rfl, h⟩
        rw [Request.order, hpid]
        rfl
  | setPriority pid priority =>
    refine Ask.ensures_map.2 ?_
    unfold Wos.setPriority
    refine Ask.ensures_ite.2 ⟨fun _ => ⟨rfl, .inl rfl, rfl, rfl⟩, fun hp => ?_⟩
    refine ensures_tell (readOrder_renice pid priority) (fun d' e h => ?_) (fun d' h => ?_)
    · exact ⟨rfl, .inl rfl, rfl, h⟩
    · rw [recordPriority_eq]
      exact ⟨rfl, .inl rfl, .renice pid priority, rfl, fun _ => UInt8.not_lt.1 hp, nofun, rfl, h⟩

/-! ## Runs -/

/-- How many processes have been asked for. -/
def spawns (cs : List Exchange) : Nat := cs.countP (·.1.isSpawn)

/-- All that `wos-ctl` has accepted. -/
def allOrders (cs : List Exchange) : List Order := cs.flatMap fun c => orders c.2

/-- The entries that an adapter with a priority of the scheduler writes. -/
def Proper (t : Table) : Prop :=
  ∀ pid p, t.lookup pid = some p → p.pid = pid ∧ p.parentPid = 1 ∧ p.priority ≤ 7

/-- After the exchanges `cs`, of an adapter whose first process gets the pid `n`. -/
structure Recorded (prio : UInt8) (n : UInt32) (cs : List Exchange) (s : Session) : Prop where
  priority : s.adapter.defaultPriority = prio
  replayed : (∀ c ∈ cs, Managed c.2) → s.adapter.processes = replay (allOrders cs)
  proper : prio ≤ 7 → Proper s.adapter.processes
  fresh : n.toNat + spawns cs < 2 ^ 32 → s.nextPid.toNat ≤ n.toNat + spawns cs ∧
    ∀ pid, s.adapter.processes.lookup pid ≠ none → pid.toNat < s.nextPid.toNat

variable {prio : UInt8} {n : UInt32} {cs : List Exchange} {c : Exchange} {t : Table}

theorem lookup_modify (t : Table) (pid pid' : UInt32) (f : ProcessInfo → ProcessInfo) :
    (Table.modify t pid f).lookup pid' =
      if pid' = pid then (t.lookup pid').map f else t.lookup pid' := by
  unfold Table.modify
  by_cases hp : pid' = pid
  · subst hp
    rw [if_pos rfl]
    cases h : t.lookup pid' with
    | none => exact h
    | some p => exact Finmap.lookup_insert t
  · rw [if_neg hp]
    split
    · exact Finmap.lookup_insert_of_ne t hp
    · rfl

theorem Proper.modify {pid : UInt32} {f : ProcessInfo → ProcessInfo} (ht : Proper t)
    (hf : ∀ p, (f p).pid = p.pid ∧ (f p).parentPid = p.parentPid ∧
      (p.priority ≤ 7 → (f p).priority ≤ 7)) : Proper (Table.modify t pid f) := by
  intro pid' p' hp'
  rw [lookup_modify] at hp'
  split at hp'
  · obtain ⟨p, hp, rfl⟩ := Option.map_eq_some_iff.1 hp'
    obtain ⟨hpid, hparent, hprio⟩ := ht pid' p hp
    obtain ⟨h1, h2, h3⟩ := hf p
    exact ⟨h1.trans hpid, h2.trans hparent, h3 hprio⟩
  · exact ht pid' p' hp'

theorem Proper.apply (ht : Proper t) (ho : o.Legal) : Proper (o.apply t) := by
  cases o with
  | spawn pid name priority =>
    intro pid' p' hp'
    by_cases h : pid' = pid
    · subst h
      cases (Finmap.lookup_insert t).symm.trans hp'
      exact ⟨rfl, rfl, ho⟩
    · exact ht pid' p' ((Finmap.lookup_insert_of_ne t h).symm.trans hp')
  | signal pid sig => exact ht.modify fun p => ⟨rfl, rfl, id⟩
  | renice pid priority => exact ht.modify fun p => ⟨rfl, rfl, fun _ => ho⟩

/-- Only a spawn brings a process into the table. -/
theorem lookup_apply {pid : UInt32} (h : (o.apply t).lookup pid ≠ none) :
    t.lookup pid ≠ none ∨ ∃ name n, o = .spawn pid name n := by
  have hmodify : ∀ pid' f, (Table.modify t pid' f).lookup pid ≠ none → t.lookup pid ≠ none := by
    intro pid' f hne hnone
    rw [lookup_modify, hnone, Option.map_none, ite_self] at hne
    exact hne rfl
  cases o with
  | spawn pid' name n =>
    by_cases hp : pid = pid'
    · exact .inr ⟨name, n, by rw [hp]⟩
    · exact .inl fun hnone => h ((Finmap.lookup_insert_of_ne t hp).trans hnone)
  | signal pid' sig => exact .inl (hmodify pid' _ h)
  | renice pid' priority => exact .inl (hmodify pid' _ h)

theorem allOrders_snoc : allOrders (cs ++ [c]) = allOrders cs ++ orders c.2 := by
  rw [allOrders, List.flatMap_append, List.flatMap_singleton]
  rfl

theorem spawns_snoc : spawns (cs ++ [c]) = spawns cs + if c.1.isSpawn then 1 else 0 := by
  rw [spawns, List.countP_append, List.countP_singleton]
  rfl

theorem replay_snoc (os : List Order) (o : Order) : replay (os ++ [o]) = o.apply (replay os) := by
  rw [replay, List.foldl_append]
  rfl

/-- **The step lemma.** -/
theorem Recorded.step (hr : Recorded prio n cs s) (hs : s.step c = some s') :
    Recorded prio n (cs ++ [c]) s' := by
  obtain ⟨⟨s1, res⟩, hfeed, rfl⟩ := Option.map_eq_some_iff.1 hs
  have hkept := (perform_kept s c.1).feed hfeed
  rw [List.nil_append] at hkept
  obtain ⟨hprio, hnext, htable⟩ := hkept
  have hmanaged : (∀ c' ∈ cs ++ [c], Managed c'.2) → (∀ c' ∈ cs, Managed c'.2) ∧ Managed c.2 :=
    fun h => ⟨fun c' hc' => h c' (List.mem_append_left _ hc'),
      h c (List.mem_append_right _ List.mem_cons_self)⟩
  -- the pids that are given out, up to the last one
  have hcount : n.toNat + spawns (cs ++ [c]) < 2 ^ 32 → n.toNat + spawns cs < 2 ^ 32 ∧
      s.nextPid.toNat ≤ s1.nextPid.toNat ∧ s1.nextPid.toNat ≤ n.toNat + spawns (cs ++ [c]) ∧
      (s1.nextPid = s.nextPid + 1 → s.nextPid.toNat < s1.nextPid.toNat) := by
    intro hlt
    rw [spawns_snoc] at hlt ⊢
    have hlt' : n.toNat + spawns cs < 2 ^ 32 := by omega
    have hle := (hr.fresh hlt').1
    rcases hnext with hnext | ⟨hspawn, hnext⟩
    · rw [hnext]
      exact ⟨hlt', Nat.le_refl _, by omega, fun h => absurd h (by grind)⟩
    · rw [if_pos hspawn] at hlt ⊢
      have hsucc : s1.nextPid.toNat = s.nextPid.toNat + 1 := by
        rw [show s1.nextPid = s.nextPid + 1 from hnext, UInt32.toNat_add]
        exact Nat.mod_eq_of_lt (by show s.nextPid.toNat + 1 < 2 ^ 32; omega)
      exact ⟨hlt', by omega, by omega, fun _ => by omega⟩
  cases res with
  | error e =>
    obtain ⟨hproc, hnone⟩ := htable
    refine ⟨hprio.trans hr.priority, fun hm => ?_, fun hp => ?_, fun hlt => ?_⟩
    · rw [allOrders_snoc, hnone, List.append_nil]
      exact hproc.trans (hr.replayed (hmanaged hm).1)
    · show Proper s1.adapter.processes
      rw [hproc]
      exact hr.proper hp
    · obtain ⟨hlt', hmono, hle, -⟩ := hcount hlt
      refine ⟨hle, fun pid hpid => ?_⟩
      have hpid' : s1.adapter.processes.lookup pid ≠ none := hpid
      rw [hproc] at hpid'
      exact Nat.lt_of_lt_of_le ((hr.fresh hlt').2 pid hpid') hmono
  | ok u =>
    obtain ⟨o, -, hlegal, hfirst, hproc, hheard⟩ := htable
    refine ⟨hprio.trans hr.priority, fun hm => ?_, fun hp => ?_, fun hlt => ?_⟩
    · obtain ⟨hcs, hc⟩ := hmanaged hm
      rw [allOrders_snoc, hheard.resolve_right (fun h => h hc), replay_snoc, ← hr.replayed hcs]
      exact hproc
    · show Proper s1.adapter.processes
      rw [hproc]
      exact (hr.proper hp).apply (hlegal (by rw [hr.priority]; exact hp))
    · obtain ⟨hlt', hmono, hle, hsucc⟩ := hcount hlt
      refine ⟨hle, fun pid hpid => ?_⟩
      have hpid' : s1.adapter.processes.lookup pid ≠ none := hpid
      rw [hproc] at hpid'
      rcases lookup_apply hpid' with hold | ⟨name, k, rfl⟩
      · exact Nat.lt_of_lt_of_le ((hr.fresh hlt').2 pid hold) hmono
      · obtain ⟨rfl, hnew⟩ := hfirst pid name k rfl
        exact hsucc hnew

/-- **The process table.** While `wos-ctl` answers whenever it is asked for its version, the table
is the one that the orders it has accepted describe. It always holds every process under its pid, with
init as its parent and a priority of the scheduler; a new process gets a pid that is not in it, as
long as the pids have not wrapped around; and a request that fails leaves the table, and no order
that was accepted. -/
theorem table_replays (prio : UInt8) (n : UInt32) (a : WosAdapter)
    (hnew : WosAdapter.withPriority prio = some a)
    (hr : run Session.step ⟨a, n⟩ cs = some s) :
    ((∀ c ∈ cs, Managed c.2) → s.adapter.processes = replay (allOrders cs)) ∧
    Proper s.adapter.processes ∧
    (n.toNat + spawns cs < 2 ^ 32 → s.adapter.processes.lookup s.nextPid = none) ∧
    ∀ req d s' e, (Request.perform s req).feed d = some (s', .error e) →
      s'.adapter = s.adapter ∧ orders d = [] := by
  obtain ⟨hprio, ha⟩ : prio ≤ 7 ∧ (⟨prio, ∅⟩ : WosAdapter) = a := by
    simpa [WosAdapter.withPriority] using hnew
  subst ha
  have hstart : Recorded prio n [] ⟨⟨prio, ∅⟩, n⟩ :=
    ⟨rfl, fun _ => rfl, fun _ _ _ => nofun, fun _ => ⟨Nat.le_refl _,
      fun pid hpid => absurd rfl hpid⟩⟩
  have hrec : Recorded prio n ([] ++ cs) s := run_hist (fun _ _ _ _ => Recorded.step) hstart hr
  rw [List.nil_append] at hrec
  refine ⟨hrec.replayed, hrec.proper hprio, fun hlt => ?_, fun req d s' e hfeed => ?_⟩
  · by_contra hne
    exact Nat.lt_irrefl _ ((hrec.fresh hlt).2 s.nextPid hne)
  · have hkept := (perform_kept s req).feed hfeed
    rw [List.nil_append] at hkept
    obtain ⟨hp, -, hproc, hnone⟩ := hkept
    obtain ⟨⟨p, t⟩, k⟩ := s'
    exact ⟨congrArg₂ WosAdapter.mk hp hproc, hnone⟩

/-- A process is spawned and told to end; then `wos-ctl` refuses to renice it. -/
def spawnedAndEnded : List Exchange :=
  let answered : Σ q : Question, q.Answer := ⟨version, (.ok (printed "wos-ctl 1.0") : Ran)⟩
  let told (ws : List String) (ran : Ran) : Σ q : Question, q.Answer :=
    ⟨.command ⟨.ofText "wos-ctl".toList, ws.map String.toList⟩, ran⟩
  [(.spawn false ⟨1⟩ "web", [answered, answered, told
      ["spawn", "--name", "web", "--priority", "4", "--pid", "2"] (.ok (printed ""))]),
    (.signal (.wos ⟨1⟩ 2) .term, [answered, told
      ["signal", "--pid", "2", "--signal", "15"] (.ok (printed ""))]),
    (.setPriority 2 1, [answered, told
      ["renice", "--pid", "2", "--priority", "1"] (.ok ⟨some 1, [], "no process".toList⟩)])]

theorem table_replays_web : ∃ s, run Session.step ⟨.new, 2⟩ spawnedAndEnded = some s ∧
    s.adapter.processes = replay [.spawn 2 "web" 4, .signal 2 .term] := by
  obtain ⟨s, hr⟩ : ∃ s, run Session.step ⟨.new, 2⟩ spawnedAndEnded = some s := ⟨_, rfl⟩
  have horders : allOrders spawnedAndEnded = [.spawn 2 "web" 4, .signal 2 .term] := by decide
  have hmanaged : ∀ c ∈ spawnedAndEnded, Managed c.2 := by
    unfold Managed
    decide
  have h := (table_replays 4 2 .new rfl hr).1 hmanaged
  rw [horders] at h
  exact ⟨s, hr, h⟩

end Duende.Core.Wos
