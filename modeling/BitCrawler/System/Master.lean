import BitCrawler.System.Worker

/-! # One step of the master

The master's main greenlet: `main`'s start-up (the wipe of the previous crawl's keys,
`update_excluded_networks`, `set_pending`, the `running` flag and the spawn of the workers),
then `cron`, whose pass rotation is `restart` followed by `update_excluded_networks`, the
`nodes` history and `dump`. `masterStep` takes it from one store command to the next.

As for the workers, the last section says once what a master step can do: its writes are its
events, it moves no worker except when it spawns them, it changes only its own instance, and
its events are the ones listed in `MasterEvent`.
-/

namespace BitCrawler
set_option autoImplicit false
open Python

section
variable (conf : Conf) (lib : Lib)

/-! ## Helpers of `main`, `set_pending`, `restart` and `dump` -/

/-- The patterns the start-up deletes, as `get_keys` prefixes, in order. -/
def bootPatterns : List String := ["node:", "height:", "crawl:cidr:", "version:", "peer:"]

/-- `str((node, CONF['port'], TO_SERVICES))`: the entry `set_pending` adds for a seed. -/
def seedStr (node : String) : String :=
  tripleStr lib (.str node, .int conf.port, .int lib.toServices)

/-- `(address, port, services) = eval(node)` for a checked node in `restart`; `none` where the
unpacking raises, or where `is_excluded(address)` does because the address is not a string. -/
def checkedNode : Value → Option (String × Atom × Atom)
  | .item (.tuple [.str a, p, s]) => some (a, p, s)
  | .list [.atom (.str a), .atom p, .atom s] => some (a, p, s)
  | _ => none

/-- `restart`'s loop over the checked nodes: the `is_excluded` answers, and the entries it
buffers for `pending`, or `none` once a step of the loop raised. -/
def checkAdds (excluded : String → Option Bool) :
    List String → List (String × Bool) × Option (List String)
  | [] => ([], some [])
  | x :: xs =>
    match (eval x).bind checkedNode with
    | none => ([], none)
    | some (a, p, sv) =>
      match excluded a with
      | none => ([], none)
      | some true => ((a, true) :: (checkAdds excluded xs).1, (checkAdds excluded xs).2)
      | some false =>
        ((a, false) :: (checkAdds excluded xs).1,
          (checkAdds excluded xs).2.map (tripleStr lib (.str a, p, sv) :: ·))

/-- `int(redis_conn.get(height_key))` in `dump`: a missing key reads as 0 (the `TypeError` is
caught), text that is not an integer raises. -/
def dumpHeight : Option String → Option Int
  | none => some 0
  | some v => toInt v

/-- `gevent.spawn(task, redis_conn)` for the master's workers. -/
def spawnWorkers (s : Sys) : Sys :=
  { s with workers := s.workers.map fun wk =>
      if wk.inst = 0 ∧ wk.pc = .spawn then { wk with pc := .top } else wk }

/-- The master's instance. -/
def Sys.masterInst (s : Sys) : Inst := s.insts.getD 0 default

@[simp] theorem Sys.masterInst_mk (st : Store) (s : Sys) (ws : List Worker) (m : MPc) :
    (Sys.mk st s.insts ws m).masterInst = s.masterInst := rfl

theorem masterInst_modify_zero (l : List Inst) (f : Inst → Inst) (h : 0 < l.length) :
    (l.modify f 0).getD 0 default = f (l.getD 0 default) := by
  cases l with
  | nil => simp at h
  | cons x l => rfl

theorem masterInst_modify (l : List Inst) (f : Inst → Inst) {i : Nat} (hi : i ≠ 0) :
    (l.modify f i).getD 0 default = l.getD 0 default := by
  simp [List.getD_eq_getElem?_getD, List.getElem?_modify, hi]

theorem Sys.masterInst_setInst_zero (s : Sys) (f : Inst → Inst) (h : 0 < s.insts.length) :
    (s.setInst 0 f).masterInst = f s.masterInst :=
  masterInst_modify_zero _ f h

/-- The master sends one write command and moves on. -/
def masterCmd (s : Sys) (c : Cmd) (pc : MPc) : Sys × List Event :=
  ({ s with store := s.store.exec c, master := pc }, [.cmd .master c])

/-- Where `update_excluded_networks` returns to, once the lists are reloaded. -/
def Ret.next (conf : Conf) : Ret → MPc
  | .boot => .seed conf.seeders []
  | .restart t nodes => .history t nodes

/-! ## The step -/

/-- One step of the master's main greenlet. -/
def masterStep (s : Sys) (e : Env) : Sys × List Event :=
  match s.master with
  | .start => masterCmd s (.set "crawl:master:state" "starting") (.scan bootPatterns [])
  | .scan [] dels => ({ s with master := .wipe dels }, [])
  | .scan (pat :: pats) dels =>
    ({ s with master := if pats = [] then .wipe (dels ++ s.store.keys pat)
        else .scan pats (dels ++ s.store.keys pat) }, [])
  | .wipe dels =>
    ({ s with store := s.store.execAll (wipeCmds dels), master := .publish4 .boot },
      [.pipe .master (wipeCmds dels)])
  | .publish4 ret =>
    masterCmd
      (s.setInst 0 fun x => { x with
        exclude4 := (updateRules lib conf e.fetch s.masterInst.exclude4 s.masterInst.exclude6).1
        exclude6 := (updateRules lib conf e.fetch s.masterInst.exclude4 s.masterInst.exclude6).2 })
      (.set "exclude-ipv4-networks"
        (rulesStr lib (updateRules lib conf e.fetch s.masterInst.exclude4 s.masterInst.exclude6).1))
      (.publish6 ret (updateRules lib conf e.fetch s.masterInst.exclude4 s.masterInst.exclude6).2)
  | .publish6 ret v6 => masterCmd s (.set "exclude-ipv6-networks" (rulesStr lib v6)) (.reload4 ret)
  | .reload4 ret =>
    match s.store.get "exclude-ipv4-networks" with
    | none => ({ s with master := .reload6 ret }, [])
    | some v =>
      match (eval v).bind rulesOf with
      | none => ({ s with master := .dead }, [])
      | some r => ({ s.setInst 0 fun x => { x with current4 := some r } with master := .reload6 ret }, [])
  | .reload6 ret =>
    match s.store.get "exclude-ipv6-networks" with
    | none => ({ s with master := ret.next conf }, [])
    | some v =>
      match (eval v).bind rulesOf with
      | none => ({ s with master := .dead }, [])
      | some r =>
        ({ s.setInst 0 fun x => { x with current6 := some r } with master := ret.next conf }, [])
  | .seed [] [] => ({ s with master := if conf.onion then .onionSeed conf.onionNodes else .launch }, [])
  | .seed (_ :: sds) [] => ({ s with master := .seed sds e.resolve.dedup }, [])
  | .seed sds (n :: ns) =>
    match isExcluded lib s.masterInst.current4 s.masterInst.current6 n with
    | none => ({ s with master := .dead }, [])
    | some true =>
      ({ s with master := .seed sds ns },
        [.exclusion .master s.masterInst.current4 s.masterInst.current6 n true])
    | some false =>
      ({ s with store := s.store.exec (.sadd .pending (seedStr conf lib n)), master := .seed sds ns },
        [.exclusion .master s.masterInst.current4 s.masterInst.current6 n false,
          .cmd .master (.sadd .pending (seedStr conf lib n))])
  | .onionSeed [] => ({ s with master := .launch }, [])
  | .onionSeed (n :: ns) => masterCmd s (.sadd .pending (seedStr conf lib n)) (.onionSeed ns)
  | .launch =>
    (spawnWorkers (masterCmd s (.set "crawl:master:state" "running") (.cron e.now)).1,
      [.cmd .master (.set "crawl:master:state" "running")])
  | .cron start =>
    ({ s with master := if s.store.pending.scard = 0 then .starting start else .cron start }, [])
  | .starting start => masterCmd s (.set "crawl:master:state" "starting") (.elapsed start)
  | .elapsed start => masterCmd s (.set "elapsed" (toString (e.now - start))) (.members e.now)
  | .members t =>
    ({ s with master := match s.store.up.members.mapM (reseed lib) with
        | none => .dead
        | some rs => .scanNodes t s.store.up.members rs }, [.members s.store.up.members])
  | .scanNodes t nodes rs => ({ s with master := .scanCidr t nodes rs (s.store.keys "node:") }, [])
  | .scanCidr t nodes rs dels =>
    ({ s with master := if conf.includeChecked then .checked t nodes rs (dels ++ s.store.keys "crawl:cidr:")
        else .rotate t nodes rs (dels ++ s.store.keys "crawl:cidr:") [] }, [])
  | .checked t nodes rs dels =>
    match checkAdds lib (isExcluded lib s.masterInst.current4 s.masterInst.current6)
      (s.store.zrangebyscore (t - conf.maxAge) t) with
    | (evald, adds) =>
      ({ s with master := match adds with
          | none => .dead
          | some adds => .rotate t nodes rs dels adds },
        evald.map fun x => .exclusion .master s.masterInst.current4 s.masterInst.current6 x.1 x.2)
  | .rotate t nodes rs dels adds =>
    ({ s with store := s.store.execAll (rotateCmds rs dels adds), master := .publish4 (.restart t nodes) },
      [.pipe .master (rotateCmds rs dels adds)])
  | .history t nodes =>
    masterCmd s (.lpush .nodes ((Value.item (.tuple [.int t, .int nodes.length])).str lib.printable))
      (.dump t nodes [])
  | .dump t [] rows => ({ s with master := .resume }, if rows = [] then [] else [.snapshot t rows])
  | .dump t (n :: todo) rows =>
    match dumpParse n with
    | none => ({ s with master := .dead }, [])
    | some (a, pv, sv, hk) =>
      match dumpHeight (s.store.get hk) with
      | none => ({ s with master := .dead }, [])
      | some h => ({ s with master := .dump t todo (rows ++ [(a, pv, sv, h)]) }, [])
  | .resume => masterCmd s (.set "crawl:master:state" "running") (.cron e.now)
  | .dead => (s, [])

/-! ## What a master step can do

`MasterMoves` lists the edges of `masterStep`, each with the guard it reads, what it lets the
world answer (the clock, DNS, the fetched texts) and the state and events it produces. Every
property of the master below is derived from it, by one case per edge. -/

/-- The lists `update_excluded_networks` builds from the fetched texts and the master's static
lists. -/
def Sys.updated (s : Sys) (fetch : String → String) : Rules × Rules :=
  updateRules lib conf fetch s.masterInst.exclude4 s.masterInst.exclude6

/-- How a step of the master moves the deployment, and what it reports. -/
inductive MasterMoves (s : Sys) : Sys → List Event → Prop
  | start (h : s.master = .start) :
      MasterMoves s (masterCmd s (.set "crawl:master:state" "starting") (.scan bootPatterns [])).1
        [.cmd .master (.set "crawl:master:state" "starting")]
  | scanEnd (dels : List String) (h : s.master = .scan [] dels) :
      MasterMoves s { s with master := .wipe dels } []
  | scan (pat : String) (pats dels : List String) (h : s.master = .scan (pat :: pats) dels) :
      MasterMoves s { s with master := (if pats = [] then .wipe (dels ++ s.store.keys pat)
        else .scan pats (dels ++ s.store.keys pat)) } []
  | wipe (dels : List String) (h : s.master = .wipe dels) :
      MasterMoves s { s with store := s.store.execAll (wipeCmds dels), master := .publish4 .boot }
        [.pipe .master (wipeCmds dels)]
  | publish4 (ret : Ret) (fetch : String → String) (h : s.master = .publish4 ret) :
      MasterMoves s
        (masterCmd (s.setInst 0 (fun x =>
            { x with exclude4 := (s.updated conf lib fetch).1, exclude6 := (s.updated conf lib fetch).2 }))
          (.set "exclude-ipv4-networks" (rulesStr lib (s.updated conf lib fetch).1))
          (.publish6 ret (s.updated conf lib fetch).2)).1
        [.cmd .master (.set "exclude-ipv4-networks" (rulesStr lib (s.updated conf lib fetch).1))]
  | publish6 (ret : Ret) (v6 : Rules) (h : s.master = .publish6 ret v6) :
      MasterMoves s (masterCmd s (.set "exclude-ipv6-networks" (rulesStr lib v6)) (.reload4 ret)).1
        [.cmd .master (.set "exclude-ipv6-networks" (rulesStr lib v6))]
  | reload4None (ret : Ret) (h : s.master = .reload4 ret) (hv : s.store.get "exclude-ipv4-networks" = none) :
      MasterMoves s { s with master := .reload6 ret } []
  | reload4Raise (ret : Ret) (v : String) (h : s.master = .reload4 ret)
      (hv : s.store.get "exclude-ipv4-networks" = some v) (hr : (eval v).bind rulesOf = none) :
      MasterMoves s { s with master := .dead } []
  | reload4 (ret : Ret) (v : String) (r : Rules) (h : s.master = .reload4 ret)
      (hv : s.store.get "exclude-ipv4-networks" = some v) (hr : (eval v).bind rulesOf = some r) :
      MasterMoves s { s.setInst 0 fun x => { x with current4 := some r } with master := .reload6 ret } []
  | reload6None (ret : Ret) (h : s.master = .reload6 ret) (hv : s.store.get "exclude-ipv6-networks" = none) :
      MasterMoves s { s with master := ret.next conf } []
  | reload6Raise (ret : Ret) (v : String) (h : s.master = .reload6 ret)
      (hv : s.store.get "exclude-ipv6-networks" = some v) (hr : (eval v).bind rulesOf = none) :
      MasterMoves s { s with master := .dead } []
  | reload6 (ret : Ret) (v : String) (r : Rules) (h : s.master = .reload6 ret)
      (hv : s.store.get "exclude-ipv6-networks" = some v) (hr : (eval v).bind rulesOf = some r) :
      MasterMoves s { s.setInst 0 fun x => { x with current6 := some r } with master := ret.next conf } []
  | seedEnd (h : s.master = .seed [] []) :
      MasterMoves s { s with master := if conf.onion then .onionSeed conf.onionNodes else .launch } []
  | resolve (sd : String) (sds addrs : List String) (h : s.master = .seed (sd :: sds) []) :
      MasterMoves s { s with master := .seed sds addrs.dedup } []
  | seedRaise (sds : List String) (n : String) (ns : List String) (h : s.master = .seed sds (n :: ns))
      (hx : isExcluded lib s.masterInst.current4 s.masterInst.current6 n = none) :
      MasterMoves s { s with master := .dead } []
  | seedSkip (sds : List String) (n : String) (ns : List String) (h : s.master = .seed sds (n :: ns))
      (hx : isExcluded lib s.masterInst.current4 s.masterInst.current6 n = some true) :
      MasterMoves s { s with master := .seed sds ns }
        [.exclusion .master s.masterInst.current4 s.masterInst.current6 n true]
  | seed (sds : List String) (n : String) (ns : List String) (h : s.master = .seed sds (n :: ns))
      (hx : isExcluded lib s.masterInst.current4 s.masterInst.current6 n = some false) :
      MasterMoves s { s with store := s.store.exec (.sadd .pending (seedStr conf lib n)), master := .seed sds ns }
        [.exclusion .master s.masterInst.current4 s.masterInst.current6 n false,
          .cmd .master (.sadd .pending (seedStr conf lib n))]
  | onionEnd (h : s.master = .onionSeed []) : MasterMoves s { s with master := .launch } []
  | onionSeed (n : String) (ns : List String) (h : s.master = .onionSeed (n :: ns)) :
      MasterMoves s (masterCmd s (.sadd .pending (seedStr conf lib n)) (.onionSeed ns)).1
        [.cmd .master (.sadd .pending (seedStr conf lib n))]
  | launch (now : Int) (h : s.master = .launch) :
      MasterMoves s (spawnWorkers (masterCmd s (.set "crawl:master:state" "running") (.cron now)).1)
        [.cmd .master (.set "crawl:master:state" "running")]
  | cron (start : Int) (h : s.master = .cron start) :
      MasterMoves s { s with master := if s.store.pending.scard = 0 then .starting start else .cron start } []
  | starting (start : Int) (h : s.master = .starting start) :
      MasterMoves s (masterCmd s (.set "crawl:master:state" "starting") (.elapsed start)).1
        [.cmd .master (.set "crawl:master:state" "starting")]
  | elapsed (start now : Int) (h : s.master = .elapsed start) :
      MasterMoves s (masterCmd s (.set "elapsed" (toString (now - start))) (.members now)).1
        [.cmd .master (.set "elapsed" (toString (now - start)))]
  | membersRaise (t : Int) (h : s.master = .members t) (hr : s.store.up.members.mapM (reseed lib) = none) :
      MasterMoves s { s with master := .dead } [.members s.store.up.members]
  | members (t : Int) (rs : List String) (h : s.master = .members t)
      (hr : s.store.up.members.mapM (reseed lib) = some rs) :
      MasterMoves s { s with master := .scanNodes t s.store.up.members rs } [.members s.store.up.members]
  | scanNodes (t : Int) (nodes rs : List String) (h : s.master = .scanNodes t nodes rs) :
      MasterMoves s { s with master := .scanCidr t nodes rs (s.store.keys "node:") } []
  | scanCidr (t : Int) (nodes rs dels : List String) (h : s.master = .scanCidr t nodes rs dels) :
      MasterMoves s { s with master := (if conf.includeChecked then .checked t nodes rs (dels ++ s.store.keys "crawl:cidr:")
        else .rotate t nodes rs (dels ++ s.store.keys "crawl:cidr:") []) } []
  | checkedRaise (t : Int) (nodes rs dels : List String) (evald : List (String × Bool))
      (h : s.master = .checked t nodes rs dels)
      (hc : checkAdds lib (isExcluded lib s.masterInst.current4 s.masterInst.current6)
        (s.store.zrangebyscore (t - conf.maxAge) t) = (evald, none)) :
      MasterMoves s { s with master := .dead }
        (evald.map fun x => .exclusion .master s.masterInst.current4 s.masterInst.current6 x.1 x.2)
  | checked (t : Int) (nodes rs dels : List String) (evald : List (String × Bool)) (adds : List String)
      (h : s.master = .checked t nodes rs dels)
      (hc : checkAdds lib (isExcluded lib s.masterInst.current4 s.masterInst.current6)
        (s.store.zrangebyscore (t - conf.maxAge) t) = (evald, some adds)) :
      MasterMoves s { s with master := .rotate t nodes rs dels adds }
        (evald.map fun x => .exclusion .master s.masterInst.current4 s.masterInst.current6 x.1 x.2)
  | rotate (t : Int) (nodes rs dels adds : List String) (h : s.master = .rotate t nodes rs dels adds) :
      MasterMoves s { s with store := s.store.execAll (rotateCmds rs dels adds), master := .publish4 (.restart t nodes) }
        [.pipe .master (rotateCmds rs dels adds)]
  | history (t : Int) (nodes : List String) (h : s.master = .history t nodes) :
      MasterMoves s (masterCmd s (.lpush .nodes ((Value.item (.tuple [.int t, .int nodes.length])).str lib.printable))
          (.dump t nodes [])).1
        [.cmd .master (.lpush .nodes ((Value.item (.tuple [.int t, .int nodes.length])).str lib.printable))]
  | dumpEnd (t : Int) (rows : List Row) (h : s.master = .dump t [] rows) :
      MasterMoves s { s with master := .resume } (if rows = [] then [] else [.snapshot t rows])
  | dumpRaise (t : Int) (n : String) (todo : List String) (rows : List Row) (h : s.master = .dump t (n :: todo) rows)
      (hn : dumpParse n = none ∨ ∃ a pv sv hk, dumpParse n = some (a, pv, sv, hk) ∧ dumpHeight (s.store.get hk) = none) :
      MasterMoves s { s with master := .dead } []
  | dump (t : Int) (n : String) (todo : List String) (rows : List Row) (a : String) (pv sv : Int) (hk : String)
      (ht : Int) (h : s.master = .dump t (n :: todo) rows) (hn : dumpParse n = some (a, pv, sv, hk))
      (hh : dumpHeight (s.store.get hk) = some ht) :
      MasterMoves s { s with master := .dump t todo (rows ++ [(a, pv, sv, ht)]) } []
  | resume (now : Int) (h : s.master = .resume) :
      MasterMoves s (masterCmd s (.set "crawl:master:state" "running") (.cron now)).1
        [.cmd .master (.set "crawl:master:state" "running")]
  | dead (h : s.master = .dead) : MasterMoves s s []

/-- Every step of the master is one of its `MasterMoves`. -/
theorem masterStep_moves (s : Sys) (e : Env) :
    MasterMoves conf lib s (masterStep conf lib s e).1 (masterStep conf lib s e).2 := by
  unfold masterStep
  split <;> rename_i hm
  · exact .start hm
  · exact .scanEnd _ hm
  · exact .scan _ _ _ hm
  · exact .wipe _ hm
  · exact .publish4 _ _ hm
  · exact .publish6 _ _ hm
  · split
    · exact .reload4None _ hm ‹_›
    · split
      · exact .reload4Raise _ _ hm ‹_› ‹_›
      · exact .reload4 _ _ _ hm ‹_› ‹_›
  · split
    · exact .reload6None _ hm ‹_›
    · split
      · exact .reload6Raise _ _ hm ‹_› ‹_›
      · exact .reload6 _ _ _ hm ‹_› ‹_›
  · exact .seedEnd hm
  · exact .resolve _ _ _ hm
  · split
    · exact .seedRaise _ _ _ hm ‹_›
    · exact .seedSkip _ _ _ hm ‹_›
    · exact .seed _ _ _ hm ‹_›
  · exact .onionEnd hm
  · exact .onionSeed _ _ hm
  · exact .launch _ hm
  · exact .cron _ hm
  · exact .starting _ hm
  · exact .elapsed _ _ hm
  · split
    · exact .membersRaise _ hm ‹_›
    · exact .members _ _ hm ‹_›
  · exact .scanNodes _ _ _ hm
  · exact .scanCidr _ _ _ _ hm
  · split
    split
    · exact .checkedRaise _ _ _ _ _ hm ‹_›
    · exact .checked _ _ _ _ _ _ hm ‹_›
  · exact .rotate _ _ _ _ _ hm
  · exact .history _ _ hm
  · exact .dumpEnd _ _ hm
  · split
    · exact .dumpRaise _ _ _ _ hm (.inl ‹_›)
    · split
      · exact .dumpRaise _ _ _ _ hm (.inr ⟨_, _, _, _, ‹_›, ‹_›⟩)
      · exact .dump _ _ _ _ _ _ _ _ _ hm ‹_› ‹_›
  · exact .resume _ hm
  · exact .dead hm

section
variable {conf lib} {s s' : Sys} {evs : List Event}

/-- The master's writes are its events. -/
theorem MasterMoves.store (h : MasterMoves conf lib s s' evs) : s'.store = s.store.replay evs := by
  cases h <;> first | rfl | exact (replay_exclusions _ _ _ _ _).symm | (split <;> rfl)

/-- The master moves no worker except when it spawns its own. -/
theorem MasterMoves.workers (h : MasterMoves conf lib s s' evs) :
    s'.workers = s.workers ∨ (s.master = .launch ∧ s'.workers = (spawnWorkers s).workers) := by
  cases h
  case launch hm => exact .inr ⟨hm, rfl⟩
  all_goals exact .inl rfl

/-- The master changes only its own instance: `update_excluded_networks` rewrites its static
lists and loads the published ones, so a list once loaded stays loaded. -/
theorem MasterMoves.insts (h : MasterMoves conf lib s s' evs) :
    s'.insts = s.insts ∨
      ∃ f : Inst → Inst, s'.insts = s.insts.modify f 0 ∧
        ∀ x : Inst, (x.current4.isSome → (f x).current4.isSome) ∧
          (x.current6.isSome → (f x).current6.isSome) := by
  cases h
  case publish4 => exact .inr ⟨_, rfl, fun _ => ⟨id, id⟩⟩
  case reload4 => exact .inr ⟨_, rfl, fun _ => ⟨fun _ => rfl, id⟩⟩
  case reload6 => exact .inr ⟨_, rfl, fun _ => ⟨id, fun _ => rfl⟩⟩
  all_goals exact .inl rfl

end

/-- The master's writes are its events. -/
theorem masterStep_store (s : Sys) (e : Env) :
    (masterStep conf lib s e).1.store = s.store.replay (masterStep conf lib s e).2 :=
  (masterStep_moves conf lib s e).store

theorem masterStep_workers (s : Sys) (e : Env) :
    (masterStep conf lib s e).1.workers = s.workers ∨
      (s.master = .launch ∧ (masterStep conf lib s e).1.workers = (spawnWorkers s).workers) :=
  (masterStep_moves conf lib s e).workers

theorem masterStep_insts (s : Sys) (e : Env) :
    (masterStep conf lib s e).1.insts = s.insts ∨
      ∃ f : Inst → Inst, (masterStep conf lib s e).1.insts = s.insts.modify f 0 ∧
        ∀ x : Inst, (x.current4.isSome → (f x).current4.isSome) ∧
          (x.current6.isSome → (f x).current6.isSome) :=
  (masterStep_moves conf lib s e).insts

/-- The events a master step can report. -/
inductive MasterEvent : Event → Prop
  | set (k v : String) : MasterEvent (.cmd .master (.set k v))
  | seed (x : String) : MasterEvent (.cmd .master (.sadd .pending x))
  | history (v : String) : MasterEvent (.cmd .master (.lpush .nodes v))
  | wipe (dels : List String) : MasterEvent (.pipe .master (wipeCmds dels))
  | rotate (rs dels adds : List String) : MasterEvent (.pipe .master (rotateCmds rs dels adds))
  | members (ks : List String) : MasterEvent (.members ks)
  | exclusion (r4 r6 : Option Rules) (x : String) (b : Bool) :
      MasterEvent (.exclusion .master r4 r6 x b)
  | snapshot (t : Int) (rows : List Row) : MasterEvent (.snapshot t rows)

theorem MasterMoves.events {s s' : Sys} {evs : List Event} (h : MasterMoves conf lib s s' evs) :
    ∀ ev ∈ evs, MasterEvent ev := by
  cases h <;> intro ev hev <;> (try split at hev) <;>
    simp only [List.mem_cons, List.mem_singleton, List.not_mem_nil, or_false, List.mem_map] at hev
  all_goals first
    | (subst hev; constructor)
    | (rcases hev with rfl | rfl <;> constructor)
    | (obtain ⟨_, -, rfl⟩ := hev; constructor)

theorem masterStep_events (s : Sys) (e : Env) :
    ∀ ev ∈ (masterStep conf lib s e).2, MasterEvent ev :=
  (masterStep_moves conf lib s e).events
end

end BitCrawler
