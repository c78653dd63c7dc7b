import BitCrawler.System.Run

/-! # The exclusion rule lists across a deployment

`update_excluded_networks` publishes the master's two rule lists under `exclude-ipv4-networks`
and `exclude-ipv6-networks`, then reloads them into the master's instance
(`set_excluded_networks`). A slave's worker reloads them in `task`'s gate loop, which it enters
only while the state flag is not `running`.

`RulesInv` says what holds in every reachable state (`Reachable`: a deployment, its runs and
the restarts of its processes over the store they leave): the master stands as `MasterOk` says
at each of its program counters, the master's workers never refresh their lists and, once
spawned, find both loaded. It holds initially, every step keeps it (`step_rulesInv`) and so does
a restart (`rulesInv_restart`). From it, a master worker evaluates `is_excluded` with the
published lists outside `update_excluded_networks`' window (`master_workers_use_published`), and
what the master adds to `pending` passed `is_excluded` under them, unless it is an onion node or
a re-seed (`master_pending_adds`). The runs after these theorems show what a slave started during a pass
and a worker's re-seeded peers do instead.
-/

namespace BitCrawler
set_option autoImplicit false
open Python

/-! ## The published lists -/

/-- The two keys `update_excluded_networks` publishes the rule lists under. -/
def IsRuleKey (k : String) : Prop := k = "exclude-ipv4-networks" ∨ k = "exclude-ipv6-networks"

/-- A command that neither sets nor deletes the string key `k`. -/
def Cmd.keeps (k : String) : Cmd → Prop
  | .set k' _ | .del k' => k' ≠ k
  | _ => True

namespace Store

theorem get_exec_keeps (st : Store) (c : Cmd) {k : String} (h : c.keeps k) :
    (st.exec c).get k = st.get k := by
  cases c with
  | sadd sk m => cases sk <;> rfl
  | set k' v => exact KMap.get_set_ne _ _ _ _ (Ne.symm h)
  | lpush lk v => cases lk <;> rfl
  | del k' => exact get_del_ne st (Ne.symm h)

theorem get_execAll_keeps (st : Store) (cmds : List Cmd) {k : String} (h : ∀ c ∈ cmds, c.keeps k) :
    (st.execAll cmds).get k = st.get k := by
  induction cmds generalizing st with
  | nil => rfl
  | cons c cmds ih =>
    rw [List.forall_mem_cons] at h
    rw [execAll_cons, ih _ h.2, get_exec_keeps _ _ h.1]

theorem get_replay_keeps (st : Store) (evs : List Event) {k : String}
    (h : ∀ ev ∈ evs, ∀ c ∈ ev.writes, c.keeps k) : (st.replay evs).get k = st.get k := by
  induction evs generalizing st with
  | nil => rfl
  | cons ev evs ih =>
    rw [List.forall_mem_cons] at h
    rw [replay_cons, ih _ h.2]
    cases ev with
    | cmd a c => exact get_exec_keeps _ _ (h.1 c (List.mem_singleton_self _))
    | pipe a cmds => exact get_execAll_keeps _ _ h.1
    | _ => rfl

theorem get_del_none (st : Store) {k : String} (d : String) (h : st.get k = none) :
    (st.del d).get k = none := by
  by_cases hd : k = d
  · subst hd
    unfold del
    repeat' split
    exacts [h, h, h, h, h, KMap.get_del_self _ _]
  · rwa [get_del_ne st hd]

theorem get_execAll_dels (st : Store) {k : String} (cmds : List Cmd)
    (hc : ∀ c ∈ cmds, ∃ d, c = .del d) (h : st.get k = none) : (st.execAll cmds).get k = none := by
  induction cmds generalizing st with
  | nil => exact h
  | cons c cmds ih =>
    rw [List.forall_mem_cons] at hc
    obtain ⟨d, rfl⟩ := hc.1
    exact ih _ hc.2 (get_del_none st d h)

@[simp] theorem get_exec_set (st : Store) (k v : String) : (st.exec (.set k v)).get k = some v :=
  KMap.get_set_self _ _ _

end Store

theorem append_ne_ruleKey (p x k : String) (hk : IsRuleKey k)
    (hp : p ∈ ["node:", "peer:", "height:", "version:", "crawl:cidr:"]) : p ++ x ≠ k := by
  intro h
  have hpre : p.data <+: k.data := ⟨x.data, by rw [← String.data_append, h]⟩
  rcases hk with rfl | rfl <;> simp only [List.mem_cons, List.mem_singleton, List.not_mem_nil,
    or_false] at hp <;> rcases hp with rfl | rfl | rfl | rfl | rfl <;> revert hpre <;> decide

section
variable {k : String} (hk : IsRuleKey k)
include hk

theorem nodeKey_ne_ruleKey (a p s : String) : nodeKey a p s ≠ k := by
  simp only [nodeKey, String.append_assoc]
  exact append_ne_ruleKey _ _ _ hk (by simp)

theorem heightKey_ne_ruleKey (a p s : String) : heightKey a p s ≠ k := by
  simp only [heightKey, String.append_assoc]
  exact append_ne_ruleKey _ _ _ hk (by simp)

theorem versionKey_ne_ruleKey (a p : String) : versionKey a p ≠ k := by
  simp only [versionKey, String.append_assoc]
  exact append_ne_ruleKey _ _ _ hk (by simp)

theorem peerKey_ne_ruleKey (a : String) (port : Int) : peerKey a port ≠ k := by
  simp only [peerKey, String.append_assoc]
  exact append_ne_ruleKey _ _ _ hk (by simp)

theorem ConnectPipe.key_ne_ruleKey (c : ConnectPipe) : c.key ≠ k := by
  unfold ConnectPipe.key upKey ConnectPipe.claimKey taskKey
  split_ifs <;> exact nodeKey_ne_ruleKey hk _ _ _

theorem ConnectPipe.adds_keeps (c : ConnectPipe) (lib : Lib) (peers : List Triple) :
    ∀ x ∈ c.adds lib peers, x.keeps k := by
  simp only [ConnectPipe.adds, List.mem_append, List.mem_cons, List.mem_map, List.not_mem_nil, or_false]
  rintro _ (⟨_, -, rfl⟩ | rfl | rfl | rfl)
  exacts [trivial, c.key_ne_ruleKey hk, trivial, trivial]

theorem ConnectPipe.cmds_keeps (c : ConnectPipe) (lib : Lib) (peers : List Triple) :
    ∀ x ∈ c.cmds lib peers, x.keeps k := by
  rw [ConnectPipe.cmds_eq]
  rintro _ (_ | ⟨_, _ | ⟨_, h⟩⟩)
  exacts [heightKey_ne_ruleKey hk _ _ _, versionKey_ne_ruleKey hk _ _, c.adds_keeps hk lib peers _ h]

/-- No worker writes a rule key. -/
theorem WorkerEvent.keeps_ruleKey (lib : Lib) {w : Nat} {ev : Event} (h : WorkerEvent lib w ev) :
    ∀ c ∈ ev.writes, c.keeps k := by
  cases h
  case pipe c peers => exact c.cmds_keeps hk lib peers
  case adds c peers => exact c.adds_keeps hk lib peers
  case repush => exact fun _ h => (List.mem_singleton.1 h) ▸ trivial
  case claim => exact fun _ h => (List.mem_singleton.1 h) ▸ nodeKey_ne_ruleKey hk _ _ _
  case cache => exact fun _ h => (List.mem_singleton.1 h) ▸ peerKey_ne_ruleKey hk _ _
  all_goals nofun

end

theorem Store.not_ruleKey_of_mem_keys (st : Store) {pfx x : String} (hp : pfx = "node:" ∨ pfx = "crawl:cidr:")
    (hx : x ∈ st.keys pfx) : ¬ IsRuleKey x := by
  simp only [Store.keys, List.mem_filter, List.isPrefixOf_iff_prefix, decide_eq_true_eq] at hx
  rintro (rfl | rfl) <;> rcases hp with rfl | rfl <;> exact absurd hx.2 (by decide)

/-! ## What the master holds -/

/-- `set_excluded_networks`' reading of a published list: `eval`, where the key is present. -/
def decodeRules (o : Option String) : Option Rules := o.bind fun v => (eval v).bind rulesOf

/-- Nothing published under a key, and nothing loaded from it. -/
def Unset (o : Option String) (cur : Option Rules) : Prop := o = none ∧ cur = none

/-- The text published under a key is the `str` of a rule list. -/
def Published (lib : Lib) (o : Option String) : Prop := ∃ r, o = some (rulesStr lib r)

/-- The instance holds the list published under a key. -/
def Synced (lib : Lib) (o : Option String) (cur : Option Rules) : Prop :=
  ∃ r, o = some (rulesStr lib r) ∧ cur = some r

/-- Both lists published and held by the master's instance. -/
def Sys.Steady (lib : Lib) (s : Sys) : Prop :=
  Synced lib (s.store.get "exclude-ipv4-networks") s.masterInst.current4 ∧
    Synced lib (s.store.get "exclude-ipv6-networks") s.masterInst.current6

/-- Each of `rs` is `restart`'s re-seed of one of the reachable `nodes`. -/
def Reseeds (lib : Lib) (nodes rs : List String) : Prop := ∀ r ∈ rs, ∃ n ∈ nodes, reseed lib n = some r

theorem reseeds_of_mapM (lib : Lib) {nodes rs : List String} (h : nodes.mapM (reseed lib) = some rs) :
    Reseeds lib nodes rs := by
  induction nodes generalizing rs with
  | nil =>
    obtain rfl : rs = [] := (Option.some.inj h).symm
    exact fun _ h => absurd h (List.not_mem_nil _)
  | cons n nodes ih =>
    simp only [List.mapM_cons, Option.bind_eq_bind, Option.bind_eq_some, Option.pure_def,
      Option.some.injEq] at h
    obtain ⟨r, hr, rs', hrs, rfl⟩ := h
    rintro x (_ | ⟨_, hx⟩)
    · exact ⟨n, .head _, hr⟩
    · obtain ⟨m, hm, h'⟩ := ih hrs x hx
      exact ⟨m, .tail _ hm, h'⟩

/-- Where the master stands with the rule lists at each of its program counters: nothing
loaded in `main` before `update_excluded_networks` (the store may hold what an earlier process
published), then published and held, except between a `SET` and the `GET` that reloads it. In
`restart`, the endpoints it re-seeds are those of the reachable nodes it read, the claims and
counters it is about to delete are not the published lists, and the checked nodes its rotation
adds passed `is_excluded` under the lists it holds. -/
def MasterOk (conf : Conf) (lib : Lib) (s : Sys) : Prop :=
  match s.master with
  | .start | .scan _ _ | .wipe _ | .publish4 .boot =>
    s.masterInst.current4 = none ∧ s.masterInst.current6 = none
  | .publish6 .boot _ =>
    Published lib (s.store.get "exclude-ipv4-networks") ∧
      s.masterInst.current4 = none ∧ s.masterInst.current6 = none
  | .reload4 .boot =>
    Published lib (s.store.get "exclude-ipv4-networks") ∧
      Published lib (s.store.get "exclude-ipv6-networks") ∧ s.masterInst.current6 = none
  | .reload6 .boot =>
    Synced lib (s.store.get "exclude-ipv4-networks") s.masterInst.current4 ∧
      Published lib (s.store.get "exclude-ipv6-networks")
  | .publish6 (.restart _ _) _ =>
    Published lib (s.store.get "exclude-ipv4-networks") ∧ s.masterInst.current4.isSome ∧
      Synced lib (s.store.get "exclude-ipv6-networks") s.masterInst.current6
  | .reload4 (.restart _ _) =>
    Published lib (s.store.get "exclude-ipv4-networks") ∧
      Published lib (s.store.get "exclude-ipv6-networks") ∧
      s.masterInst.current4.isSome ∧ s.masterInst.current6.isSome
  | .reload6 (.restart _ _) =>
    Synced lib (s.store.get "exclude-ipv4-networks") s.masterInst.current4 ∧
      Published lib (s.store.get "exclude-ipv6-networks") ∧ s.masterInst.current6.isSome
  | .scanNodes _ nodes rs => s.Steady lib ∧ Reseeds lib nodes rs
  | .scanCidr _ nodes rs dels | .checked _ nodes rs dels =>
    s.Steady lib ∧ Reseeds lib nodes rs ∧ ∀ d ∈ dels, ¬ IsRuleKey d
  | .rotate _ nodes rs dels adds =>
    s.Steady lib ∧ Reseeds lib nodes rs ∧ (∀ d ∈ dels, ¬ IsRuleKey d) ∧
      ∀ x ∈ adds, ∃ a p sv, x = tripleStr lib (.str a, p, sv) ∧
        isExcluded lib s.masterInst.current4 s.masterInst.current6 a = some false
  | .onionSeed ns => s.Steady lib ∧ ns <:+ conf.onionNodes
  | _ => s.Steady lib

/-- A slave's refresh of its rule lists. -/
def Pc.refreshing : Pc → Bool
  | .refresh4 | .refresh6 => true
  | _ => false

/-- What holds in every reachable state: the master's instance exists, its
workers never refresh rules (only slaves do, in `task`'s gate loop), once spawned they find
both lists loaded, and the master stands as `MasterOk` says. -/
structure RulesInv (conf : Conf) (lib : Lib) (s : Sys) : Prop where
  inst0 : 0 < s.insts.length
  masterOnly : ∀ w, (s.worker w).inst = 0 → (s.pcOf w).refreshing = false
  loaded : ∀ w, (s.worker w).inst = 0 → s.pcOf w ≠ .spawn → s.pcOf w ≠ .dead →
    s.masterInst.current4.isSome ∧ s.masterInst.current6.isSome
  master : MasterOk conf lib s

theorem MasterOk.frame {conf : Conf} {lib : Lib} {s s' : Sys} (h : MasterOk conf lib s)
    (hm : s'.master = s.master) (hi : s'.masterInst = s.masterInst)
    (h4 : s'.store.get "exclude-ipv4-networks" = s.store.get "exclude-ipv4-networks")
    (h6 : s'.store.get "exclude-ipv6-networks" = s.store.get "exclude-ipv6-networks") :
    MasterOk conf lib s' := by
  unfold MasterOk Sys.Steady at *
  rw [hm, hi, h4, h6]
  exact h

theorem MasterOk.reload4_published {conf : Conf} {lib : Lib} {s : Sys} {ret : Ret}
    (h : MasterOk conf lib s) (hs : s.master = .reload4 ret) :
    Published lib (s.store.get "exclude-ipv4-networks") ∧
      Published lib (s.store.get "exclude-ipv6-networks") := by
  cases ret <;> simp only [MasterOk, hs] at h
  exacts [⟨h.1, h.2.1⟩, ⟨h.1, h.2.1⟩]

theorem MasterOk.reload6_published {conf : Conf} {lib : Lib} {s : Sys} {ret : Ret}
    (h : MasterOk conf lib s) (hs : s.master = .reload6 ret) :
    Synced lib (s.store.get "exclude-ipv4-networks") s.masterInst.current4 ∧
      Published lib (s.store.get "exclude-ipv6-networks") := by
  cases ret <;> simp only [MasterOk, hs] at h
  exacts [h, ⟨h.1, h.2.1⟩]

theorem rulesInv_init (conf : Conf) (lib : Lib) (n : Nat) (ws : List Nat) (check : List (String × Int))
    (hn : 0 < n) : RulesInv conf lib (Sys.init conf lib n ws check) := by
  have hw : ∀ w, ((Sys.init conf lib n ws check).worker w).inst = 0 →
      (Sys.init conf lib n ws check).pcOf w = .spawn ∨ (Sys.init conf lib n ws check).pcOf w = .dead := by
    intro w
    simp only [Sys.pcOf, Sys.worker, Sys.init, List.getD_eq_getElem?_getD, List.getElem?_map]
    cases ws[w]? <;> simp +contextual
  have hi : (Sys.init conf lib n ws check).masterInst = Inst.init conf lib := by
    obtain ⟨m, rfl⟩ : ∃ m, n = m + 1 := ⟨n - 1, by omega⟩
    rfl
  refine ⟨by simpa [Sys.init] using hn, fun w h => ?_, fun w h h1 h2 => ?_, ?_⟩
  · rcases hw w h with h' | h' <;> simp [h', Pc.refreshing]
  · rcases hw w h with h' | h' <;> contradiction
  · simp only [MasterOk, hi]
    exact ⟨rfl, rfl⟩

/-- A process restarted over the store as it stands keeps the invariant: a restarted master
loads nothing before it publishes, and its workers wait to be spawned. -/
theorem rulesInv_restart (conf : Conf) (lib : Lib) (s : Sys) (i : Nat) (h : RulesInv conf lib s) :
    RulesInv conf lib (s.restart conf lib i) := by
  have hm := Sys.restart_masterInst conf lib s i h.inst0
  refine ⟨by simpa [Sys.restart] using h.inst0, fun w h0 => ?_, fun w h0 h1 h2 => ?_, ?_⟩
  all_goals try rw [Sys.restart_inst] at h0
  · rw [Sys.restart_pcOf]
    split_ifs
    exacts [rfl, rfl, h.masterOnly w h0]
  · rw [Sys.restart_pcOf] at h1 h2
    by_cases hi : i = 0
    · subst hi
      by_cases hw : w < s.workers.length
      · simp [hw, h0] at h1
      · exact absurd (Sys.pcOf_of_le s w (Nat.le_of_not_lt hw)) (by simpa [hw] using h2)
    · simp only [h0, Ne.symm hi, and_false, if_false] at h1 h2
      rw [hm, if_neg hi]
      exact h.loaded w h0 h1 h2
  · by_cases hi : i = 0
    · subst hi
      simp only [MasterOk, Sys.restart_master, if_true, hm]
      exact ⟨rfl, rfl⟩
    · exact h.master.frame (by simp [hi]) (by rw [hm, if_neg hi]) rfl rfl

/-! ## Every step keeps it -/


section
variable (conf : Conf) (lib : Lib)

theorem afterPop_refreshing (m : Bool) (v : String) : (afterPop conf m v).refreshing = false := by
  unfold afterPop
  split <;> (try split_ifs) <;> rfl

theorem session_refreshing (m : Bool) (a : String) (p sv : Atom) :
    (session m a p sv).refreshing = false := by
  cases m <;> rfl

/-- Only a slave enters a refresh; an unspawned or ended worker stays so. -/
theorem Moves.refreshing {s : Sys} {w : Nat} {p p' : Pc} {evs : List Event}
    (hm : Moves conf lib s w p p' evs) (h : p'.refreshing = true) :
    (s.worker w).inst ≠ 0 ∨ p.refreshing = true := by
  cases hm with
  | idle => exact .inr h
  | gate _ hi => exact .inl hi
  | refresh4 | refresh6 => exact .inr rfl
  | choose _ _ ask => cases ask <;> simp [Pc.refreshing] at h
  | repush | spop => simp [afterPop_refreshing] at h
  | claimCheck _ _ _ _ _ _ hp | cidr _ _ _ _ _ hp =>
    rcases hp with ⟨-, rfl⟩ | ⟨-, rfl⟩
    · simp [Pc.refreshing] at h
    · simp [session_refreshing] at h
  | handshake _ _ _ _ hp =>
    rcases hp with rfl | rfl | ⟨_, -, rfl⟩ | ⟨_, _, -, rfl⟩ <;> simp [Pc.refreshing] at h
  | mempool _ _ _ _ hp => rcases hp with rfl | rfl <;> simp [Pc.refreshing] at h
  | _ => simp [Pc.refreshing] at h

theorem Moves.from_idle {s : Sys} {w : Nat} {p p' : Pc} {evs : List Event}
    (hm : Moves conf lib s w p p' evs) (h : p = .spawn ∨ p = .dead) : p' = p := by
  cases hm with
  | idle => rfl
  | choose _ hp => rcases hp with ⟨rfl, -⟩ | rfl <;> rcases h with h | h <;> cases h
  | _ => rcases h with h | h <;> cases h

/-- Only a slave refreshes its lists, so a worker's step leaves the master's instance alone. -/
theorem workerStep_masterInst (s : Sys) (w : Nat) (e : Env)
    (h : ∀ w, (s.worker w).inst = 0 → (s.pcOf w).refreshing = false) :
    (workerStep conf lib s w e).1.masterInst = s.masterInst := by
  rcases (workerStep_frame conf lib s w e).2 with h' | ⟨hp, f, h'⟩
  · simp only [Sys.masterInst, h']
  · have hw : (s.worker w).inst ≠ 0 := fun h0 => by
      have := h w h0
      rcases hp with hp | hp <;> simp [hp, Pc.refreshing] at this
    simp only [Sys.masterInst, h', masterInst_modify _ _ hw]

theorem workerStep_rulesInv (s : Sys) (w : Nat) (e : Env) (h : RulesInv conf lib s) :
    RulesInv conf lib (workerStep conf lib s w e).1 := by
  obtain ⟨hws, hins⟩ := workerStep_frame conf lib s w e
  have hmv := workerStep_moves conf lib s w e
  have hinst : ∀ w', ((workerStep conf lib s w e).1.worker w').inst = (s.worker w').inst := fun w' =>
    (congrArg (fun l : List Worker => (l.getD w' ⟨0, .dead⟩).inst) hws).trans (Sys.inst_setPc _ _ _ _)
  have hmi := workerStep_masterInst conf lib s w e h.masterOnly
  have hlen : (workerStep conf lib s w e).1.insts.length = s.insts.length := by
    rcases hins with h' | ⟨-, f, h'⟩ <;> simp [h']
  have hk : ∀ k, IsRuleKey k → (workerStep conf lib s w e).1.store.get k = s.store.get k :=
    fun k hk => by
      rw [workerStep_store]
      exact Store.get_replay_keeps _ _ fun ev hev =>
        (workerStep_events conf lib s w e ev hev).keeps_ruleKey hk lib
  refine ⟨hlen ▸ h.inst0, fun w' h0 => ?_, fun w' h0 h1 h2 => ?_,
    h.master.frame (workerStep_master conf lib s w e) hmi (hk _ (.inl rfl)) (hk _ (.inr rfl))⟩
  all_goals rw [hinst] at h0
  all_goals by_cases hw : w' = w
  · subst hw
    by_contra hr
    rcases hmv.refreshing conf lib (Bool.not_eq_false _ ▸ hr) with hi | hr'
    · exact hi h0
    · simp [h.masterOnly w' h0] at hr'
  · rw [workerStep_pcOf_ne conf lib s e hw]
    exact h.masterOnly w' h0
  · subst hw
    rw [hmi]
    refine h.loaded w' h0 (fun hs => h1 ?_) (fun hd => h2 ?_)
    · rw [hmv.from_idle conf lib (.inl hs), hs]
    · rw [hmv.from_idle conf lib (.inr hd), hd]
  · rw [workerStep_pcOf_ne conf lib s e hw] at h1 h2
    rw [hmi]
    exact h.loaded w' h0 h1 h2

theorem expiring_not_ruleKey {k : String} (h : expiring k = true) : ¬ IsRuleKey k := by
  rintro (rfl | rfl) <;> revert h <;> decide

theorem expireStep_rulesInv (s : Sys) (k : String) (h : RulesInv conf lib s) :
    RulesInv conf lib (expireStep s k).1 := by
  unfold expireStep
  split
  · next hk =>
    have hne : ∀ k', IsRuleKey k' → k' ≠ k := fun k' h' e => expiring_not_ruleKey hk.1 (e ▸ h')
    exact ⟨h.inst0, h.masterOnly, h.loaded, h.master.frame rfl rfl
      (Store.get_del_ne _ (hne _ (.inl rfl))) (Store.get_del_ne _ (hne _ (.inr rfl)))⟩
  · exact h

theorem checkAdds_pass (ex : String → Option Bool) (xs : List String) {adds : List String}
    (h : (checkAdds lib ex xs).2 = some adds) :
    ∀ x ∈ adds, ∃ a p sv, x = tripleStr lib (.str a, p, sv) ∧ ex a = some false := by
  induction xs generalizing adds with
  | nil =>
    simp only [checkAdds, Option.some.injEq] at h
    simp [← h]
  | cons x xs ih =>
    simp only [checkAdds] at h
    split at h
    · simp at h
    · split at h
      · simp at h
      · exact ih h
      · obtain ⟨adds', h', rfl⟩ := Option.map_eq_some'.mp h
        rintro y (_ | ⟨_, hy⟩)
        · exact ⟨_, _, _, rfl, ‹_›⟩
        · exact ih h' y hy

theorem Sys.Steady.frame {s s' : Sys} (h : s.Steady lib) (hi : s'.masterInst = s.masterInst)
    (h4 : s'.store.get "exclude-ipv4-networks" = s.store.get "exclude-ipv4-networks")
    (h6 : s'.store.get "exclude-ipv6-networks" = s.store.get "exclude-ipv6-networks") :
    s'.Steady lib := by
  unfold Sys.Steady at *
  rw [hi, h4, h6]
  exact h

theorem keeps_set {k v : String} (k' : String) (hk : IsRuleKey k') (h : ¬ IsRuleKey k) :
    (Cmd.set k v).keeps k' := fun e => h (e ▸ hk)

/-- A command that leaves both rule keys alone keeps the master steady. -/
theorem Sys.Steady.exec {s s' : Sys} (h : s.Steady lib) (c : Cmd) (hc : ∀ k, IsRuleKey k → c.keeps k)
    (hst : s'.store = s.store.exec c) (hi : s'.masterInst = s.masterInst) : s'.Steady lib :=
  h.frame lib hi (by rw [hst, Store.get_exec_keeps _ _ (hc _ (.inl rfl))])
    (by rw [hst, Store.get_exec_keeps _ _ (hc _ (.inr rfl))])

theorem keeps_state (v : String) : ∀ k, IsRuleKey k → (Cmd.set "crawl:master:state" v).keeps k :=
  fun k hk => keeps_set k hk (by simp [IsRuleKey])

theorem Published.rulesOf {o : Option String} {v : String} (hp : Published lib o) (hv : o = some v) :
    ∃ r, v = rulesStr lib r ∧ (eval v).bind rulesOf = some r := by
  obtain ⟨r, rfl⟩ := hp
  cases hv
  exact ⟨r, rfl, rulesOf_rulesStr lib r⟩

/-- Each edge of the master keeps `MasterOk`. -/
theorem MasterMoves.masterOk {s s' : Sys} {evs : List Event} (hm : MasterMoves conf lib s s' evs)
    (h : RulesInv conf lib s) : MasterOk conf lib s' := by
  have hok := h.master
  have h0 := h.inst0
  cases hm with
  | start hs | scanEnd _ hs | wipe _ hs | resolve _ _ _ hs | seedRaise _ _ _ hs _
    | seedSkip _ _ _ hs _ | dumpEnd _ _ hs | dumpRaise _ _ _ _ hs _ | dump _ _ _ _ _ _ _ _ _ hs _ _ =>
    simp only [MasterOk, hs] at hok; exact hok
  | dead hs => exact hok
  | scan _ _ _ hs | cron _ hs => simp only [MasterOk, hs] at hok; split <;> exact hok
  | membersRaise _ hs _ => simp only [MasterOk, hs] at hok; exact hok
  | publish4 ret fetch hs =>
    have hk6 : (s.store.exec (.set "exclude-ipv4-networks" (rulesStr lib (s.updated conf lib fetch).1))).get
        "exclude-ipv6-networks" = s.store.get "exclude-ipv6-networks" :=
      Store.get_exec_keeps _ _ (by simp [Cmd.keeps])
    cases ret <;> simp only [MasterOk, hs] at hok <;>
      simp only [MasterOk, masterCmd, Sys.masterInst_mk, Sys.masterInst_setInst_zero _ _ h0,
        Sys.setInst_store, hk6, Store.get_exec_set]
    · exact ⟨⟨_, rfl⟩, hok⟩
    · obtain ⟨⟨r, -, hr⟩, h6⟩ := hok
      exact ⟨⟨_, rfl⟩, by simp [hr], h6⟩
  | publish6 ret v6 hs =>
    have hk4 : (s.store.exec (.set "exclude-ipv6-networks" (rulesStr lib v6))).get
        "exclude-ipv4-networks" = s.store.get "exclude-ipv4-networks" :=
      Store.get_exec_keeps _ _ (by simp [Cmd.keeps])
    cases ret <;> simp only [MasterOk, hs] at hok <;>
      simp only [MasterOk, masterCmd, Sys.masterInst_mk, hk4, Store.get_exec_set]
    · exact ⟨hok.1, ⟨_, rfl⟩, hok.2.2⟩
    · obtain ⟨h4, hc4, r, -, hr⟩ := hok
      exact ⟨h4, ⟨_, rfl⟩, hc4, by simp [hr]⟩
  | reload4None ret hs hv =>
    obtain ⟨⟨r, hr⟩, -⟩ := hok.reload4_published hs
    simp [hr] at hv
  | reload4Raise ret _ hs hv hr =>
    obtain ⟨r, -, hr'⟩ := (hok.reload4_published hs).1.rulesOf lib hv
    simp [hr'] at hr
  | reload6None ret hs hv =>
    obtain ⟨-, r, hr⟩ := hok.reload6_published hs
    simp [hr] at hv
  | reload6Raise ret _ hs hv hr =>
    obtain ⟨r, -, hr'⟩ := (hok.reload6_published hs).2.rulesOf lib hv
    simp [hr'] at hr
  | reload4 ret _ r hs hv hr =>
    obtain ⟨r', rfl, hr'⟩ := (hok.reload4_published hs).1.rulesOf lib hv
    obtain rfl : r = r' := Option.some.inj (hr.symm.trans hr')
    cases ret <;> simp only [MasterOk, hs] at hok <;>
      simp only [MasterOk, Sys.masterInst_mk, Sys.masterInst_setInst_zero _ _ h0, Sys.setInst_store]
    · exact ⟨⟨r, hv, rfl⟩, hok.2.1⟩
    · exact ⟨⟨r, hv, rfl⟩, hok.2.1, hok.2.2.2⟩
  | reload6 ret _ r hs hv hr =>
    obtain ⟨h4, hp⟩ := hok.reload6_published hs
    obtain ⟨r', rfl, hr'⟩ := hp.rulesOf lib hv
    obtain rfl : r = r' := Option.some.inj (hr.symm.trans hr')
    cases ret <;> simp only [MasterOk, Ret.next, Sys.Steady, Sys.masterInst_mk,
      Sys.masterInst_setInst_zero _ _ h0, Sys.setInst_store] <;> exact ⟨h4, r, hv, rfl⟩
  | seedEnd hs =>
    simp only [MasterOk, hs] at hok
    split
    · exact ⟨hok, List.suffix_refl _⟩
    · exact hok
  | seed _ n _ hs _ =>
    simp only [MasterOk, hs] at hok
    exact hok.exec lib (.sadd .pending (seedStr conf lib n)) (fun _ _ => trivial) rfl rfl
  | onionEnd hs => simp only [MasterOk, hs] at hok; exact hok.1
  | onionSeed n ns hs =>
    simp only [MasterOk, hs] at hok
    exact ⟨hok.1.exec lib (.sadd .pending (seedStr conf lib n)) (fun _ _ => trivial) rfl rfl,
      (List.suffix_cons n ns).trans hok.2⟩
  | launch _ hs | starting _ hs | resume _ hs =>
    simp only [MasterOk, hs] at hok
    exact hok.exec lib _ (keeps_state _) rfl rfl
  | elapsed _ _ hs =>
    simp only [MasterOk, hs] at hok
    exact hok.exec lib _ (fun k hk => keeps_set k hk (by simp [IsRuleKey])) rfl rfl
  | history t nodes hs =>
    simp only [MasterOk, hs] at hok
    exact hok.exec lib (.lpush .nodes ((Value.item (.tuple [.int t, .int nodes.length])).str lib.printable))
      (fun _ _ => trivial) rfl rfl
  | members t rs hs hr =>
    simp only [MasterOk, hs] at hok
    exact ⟨hok, reseeds_of_mapM lib hr⟩
  | scanNodes t nodes rs hs =>
    simp only [MasterOk, hs] at hok
    exact ⟨hok.1, hok.2, fun d hd => Store.not_ruleKey_of_mem_keys _ (.inl rfl) hd⟩
  | scanCidr t nodes rs dels hs =>
    simp only [MasterOk, hs] at hok
    have hd : ∀ d ∈ dels ++ s.store.keys "crawl:cidr:", ¬ IsRuleKey d := by
      simp only [List.mem_append]
      rintro d (hd | hd)
      exacts [hok.2.2 d hd, Store.not_ruleKey_of_mem_keys _ (.inr rfl) hd]
    split
    · exact ⟨hok.1, hok.2.1, hd⟩
    · exact ⟨hok.1, hok.2.1, hd, by simp⟩
  | checkedRaise _ _ _ _ _ hs _ => simp only [MasterOk, hs] at hok; exact hok.1
  | checked t nodes rs dels evald adds hs hc =>
    simp only [MasterOk, hs] at hok
    exact ⟨hok.1, hok.2.1, hok.2.2, checkAdds_pass lib _ _ (congrArg Prod.snd hc)⟩
  | rotate t nodes rs dels adds hs =>
    simp only [MasterOk, hs] at hok
    have hk : ∀ k, IsRuleKey k → (s.store.execAll (rotateCmds rs dels adds)).get k = s.store.get k := by
      intro k hk
      refine Store.get_execAll_keeps _ _ fun c hc => ?_
      simp only [rotateCmds, List.mem_append, List.mem_cons, List.mem_map, List.not_mem_nil,
        or_false] at hc
      rcases hc with ((rfl | ⟨_, -, rfl⟩) | ⟨d, hd, rfl⟩) | ⟨_, -, rfl⟩
      · rcases hk with rfl | rfl <;> simp [Cmd.keeps]
      · trivial
      · exact fun e => hok.2.2.1 d hd (e ▸ hk)
      · trivial
    exact hok.1.frame lib rfl (hk _ (.inl rfl)) (hk _ (.inr rfl))

theorem masterStep_rulesInv (s : Sys) (e : Env) (h : RulesInv conf lib s) :
    RulesInv conf lib (masterStep conf lib s e).1 := by
  have hi : (masterStep conf lib s e).1.insts.length = s.insts.length ∧
      (s.masterInst.current4.isSome → (masterStep conf lib s e).1.masterInst.current4.isSome) ∧
      (s.masterInst.current6.isSome → (masterStep conf lib s e).1.masterInst.current6.isSome) := by
    rcases masterStep_insts conf lib s e with hi | ⟨f, hi, hf⟩
    · simp only [Sys.masterInst, hi]
      exact ⟨trivial, id, id⟩
    · simp only [Sys.masterInst, hi, List.length_modify, masterInst_modify_zero _ _ h.inst0]
      exact ⟨trivial, (hf _).1, (hf _).2⟩
  have hw : ∀ w, ((masterStep conf lib s e).1.worker w).inst = (s.worker w).inst ∧
      ((masterStep conf lib s e).1.pcOf w = s.pcOf w ∨
        (s.master = .launch ∧ (masterStep conf lib s e).1.pcOf w = .top)) := by
    intro w
    rcases masterStep_workers conf lib s e with hw | ⟨hl, hw⟩
    · simp only [Sys.pcOf, Sys.worker, hw]
      exact ⟨trivial, .inl trivial⟩
    · have hp : (masterStep conf lib s e).1.pcOf w = (spawnWorkers s).pcOf w := by
        simp only [Sys.pcOf, Sys.worker, hw]
      have hn : ((masterStep conf lib s e).1.worker w).inst = ((spawnWorkers s).worker w).inst := by
        simp only [Sys.worker, hw]
      rw [pcOf_spawnWorkers] at hp
      refine ⟨hn.trans (inst_spawnWorkers s w), ?_⟩
      split_ifs at hp
      exacts [.inr ⟨hl, hp⟩, .inl hp]
  refine ⟨hi.1 ▸ h.inst0, fun w h0 => ?_, fun w h0 h1 h2 => ?_, (masterStep_moves conf lib s e).masterOk conf lib h⟩
  all_goals rw [(hw w).1] at h0
  · rcases (hw w).2 with hp | ⟨-, hp⟩ <;> rw [hp]
    exacts [h.masterOnly w h0, rfl]
  · rcases (hw w).2 with hp | ⟨hl, -⟩
    · rw [hp] at h1 h2
      exact ⟨hi.2.1 (h.loaded w h0 h1 h2).1, hi.2.2 (h.loaded w h0 h1 h2).2⟩
    · have hs := h.master
      simp only [MasterOk, hl, Sys.Steady] at hs
      obtain ⟨⟨_, -, h4⟩, ⟨_, -, h6⟩⟩ := hs
      exact ⟨hi.2.1 (by simp [h4]), hi.2.2 (by simp [h6])⟩

theorem step_rulesInv (s : Sys) (a : Actor) (e : Env) (h : RulesInv conf lib s) :
    RulesInv conf lib (step conf lib s a e).1 := by
  cases a with
  | master => exact masterStep_rulesInv conf lib s e h
  | worker w => exact workerStep_rulesInv conf lib s w e h
  | expire k => exact expireStep_rulesInv conf lib s k h

/-! ## Reachable states -/

/-- An entry of `pending` as the crawler writes it: `str((address, port, services))` with a
string address. -/
def PendingEntry (lib : Lib) (x : String) : Prop := ∃ a p s, x = tripleStr lib (.str a, p, s)

/-- The states a deployment reaches: `Sys.init` with the master's instance, over a `check` set
whose entries are written as the crawler writes a `pending` entry, then any steps of any process,
and the restart of any process over the store as it stands. -/
inductive Reachable : Sys → Prop
  | init (n : Nat) (ws : List Nat) (check : List (String × Int)) (hn : 0 < n)
      (hc : ∀ x ∈ check, PendingEntry lib x.1) : Reachable (Sys.init conf lib n ws check)
  | step {s : Sys} (a : Actor) (e : Env) : Reachable s → Reachable (step conf lib s a e).1
  | restart {s : Sys} (i : Nat) : Reachable s → Reachable (s.restart conf lib i)

end

section
variable {conf : Conf} {lib : Lib}

theorem Reachable.run {s : Sys} (steps : List (Actor × Env)) (h : Reachable conf lib s) :
    Reachable conf lib (run conf lib s steps).1 := by
  induction steps generalizing s with
  | nil => exact h
  | cons x steps ih =>
    rw [run_cons]
    exact ih (.step x.1 x.2 h)

theorem Reachable.rulesInv {s : Sys} (h : Reachable conf lib s) : RulesInv conf lib s := by
  induction h with
  | init n ws check hn => exact rulesInv_init conf lib n ws check hn
  | step a e _ ih => exact step_rulesInv conf lib _ a e ih
  | restart i _ ih => exact rulesInv_restart conf lib _ i ih

end

section
variable (conf : Conf) (lib : Lib)

/-! ## The lists a worker evaluates with -/

/-- A worker evaluates `is_excluded` only in `get_peers`, with its instance's loaded lists. -/
theorem Moves.exclusion {s : Sys} {w : Nat} {p p' : Pc} {evs : List Event}
    (hm : Moves conf lib s w p p' evs) {a : Actor} {r4 r6 : Option Rules} {x : String} {b : Bool}
    (h : Event.exclusion a r4 r6 x b ∈ evs) :
    (∃ c, p = .fetch c) ∧ r4 = (s.instOf w).current4 ∧ r6 = (s.instOf w).current6 := by
  cases hm
  case fetchRaise c evald =>
    obtain ⟨_, -, he⟩ := List.mem_map.mp h
    cases he
    exact ⟨⟨c, rfl⟩, rfl, rfl⟩
  case fetch c evald peers =>
    rcases List.mem_append.mp h with h | h
    · obtain ⟨_, -, he⟩ := List.mem_map.mp h
      cases he
      exact ⟨⟨c, rfl⟩, rfl, rfl⟩
    · simp at h
  all_goals simp at h

end

/-- Between `update_excluded_networks`' `SET` of the IPv4 list and the `GET` that reloads it. -/
def MPc.window4 : MPc → Bool
  | .publish6 _ _ | .reload4 _ => true
  | _ => false

/-- Between the `SET` of the IPv6 list and the `GET` that reloads it. -/
def MPc.window6 : MPc → Bool
  | .reload4 _ | .reload6 _ => true
  | _ => false

theorem Unset.decode {o : Option String} {cur : Option Rules} (h : Unset o cur) :
    cur = decodeRules o := by
  obtain ⟨rfl, rfl⟩ := h
  rfl

theorem Synced.decode {lib : Lib} {o : Option String} {cur : Option Rules} (h : Synced lib o cur) :
    cur = decodeRules o := by
  obtain ⟨r, rfl, rfl⟩ := h
  exact (rulesOf_rulesStr lib r).symm

section
variable {conf : Conf} {lib : Lib} {s : Sys}

/-- Outside its window, the master holds the IPv4 list it published, once it holds one. -/
theorem MasterOk.current4_eq (h : MasterOk conf lib s) (hw : s.master.window4 = false)
    (hc : s.masterInst.current4.isSome) :
    s.masterInst.current4 = decodeRules (s.store.get "exclude-ipv4-networks") := by
  unfold MasterOk Sys.Steady at h
  split at h <;> rename_i hm <;> simp only [hm, MPc.window4] at hw
  all_goals first
    | exact h.1.decode | exact h.1.1.decode | simp [h.1] at hc | simp at hw

theorem MasterOk.current6_eq (h : MasterOk conf lib s) (hw : s.master.window6 = false)
    (hc : s.masterInst.current6.isSome) :
    s.masterInst.current6 = decodeRules (s.store.get "exclude-ipv6-networks") := by
  unfold MasterOk Sys.Steady at h
  split at h <;> rename_i hm <;> simp only [hm, MPc.window6] at hw
  all_goals first
    | exact h.2.decode | exact h.1.2.decode | exact h.2.2.decode | (simp [h.2] at hc; done)
    | (simp [h.2.2] at hc; done) | simp at hw

end

/-- Every `is_excluded` evaluation of a worker of the master's instance, in any reachable state,
has both lists loaded, and outside `update_excluded_networks`' window between a publish and its
reload they are the lists published in the store. -/
theorem master_workers_use_published (conf : Conf) (lib : Lib) {s : Sys} (hs : Reachable conf lib s)
    (w : Nat) (h0 : (s.worker w).inst = 0) (e : Env) (r4 r6 : Option Rules) (x : String) (b : Bool)
    (hx : Event.exclusion (.worker w) r4 r6 x b ∈ (step conf lib s (.worker w) e).2) :
    r4.isSome ∧ r6.isSome ∧
      (s.master.window4 = false → r4 = decodeRules (s.store.get "exclude-ipv4-networks")) ∧
      (s.master.window6 = false → r6 = decodeRules (s.store.get "exclude-ipv6-networks")) := by
  have h := hs.rulesInv
  obtain ⟨⟨c, hc⟩, rfl, rfl⟩ := (workerStep_moves conf lib s w e).exclusion conf lib hx
  have hi : s.instOf w = s.masterInst := by
    simp only [Sys.instOf, Sys.masterInst, h0]
  rw [hi]
  obtain ⟨h4, h6⟩ := h.loaded w h0 (by simp [hc]) (by simp [hc])
  exact ⟨h4, h6, fun hw => h.master.current4_eq hw h4, fun hw => h.master.current6_eq hw h6⟩


/-- The first connection of a worker after start-up: after `k` quiet steps it has popped the
seed `1.1.1.1`, claimed it and shaken hands, and its `getaddr` is then answered by `addrEnv`. -/
def connectSteps (k : Nat) : List (Actor × Env) :=
  List.replicate k (.worker 0, quiet) ++ [(.worker 0, { hello := some (demoHello 1) })]

/-- `getaddr` returns one fresh address message with the peer `2.2.2.2`. -/
def addrEnv : Env :=
  { sent := true, polls := [some [⟨2, some [⟨0, "2.2.2.2", "", "", 8333, 1⟩]⟩]] }

/-- A master worker about to fetch its first peers. -/
def fetchStart : Sys := (run demoConf demoLib (demoInit 1 []) (bootSteps ["1.1.1.1"] ++ connectSteps 4)).1

theorem fetch_uses_published :
    (some ([] : Rules)).isSome ∧ (some ([] : Rules)).isSome ∧
      (fetchStart.master.window4 = false →
        some [] = decodeRules (fetchStart.store.get "exclude-ipv4-networks")) ∧
      (fetchStart.master.window6 = false →
        some [] = decodeRules (fetchStart.store.get "exclude-ipv6-networks")) :=
  master_workers_use_published demoConf demoLib (.run _ (.init _ _ _ (by decide) (by simp))) 0 (by decide)
    addrEnv _ _ "2.2.2.2" false (by decide)

/-- A slave spawned while a pass runs sees `running` at once and never enters the gate loop
that loads the lists: its first `get_peers` answers `2.2.2.2` with neither list loaded, where
the published lists keep it. -/
theorem late_slave_not_ready :
    Event.exclusion (.worker 0) none none "2.2.2.2" true ∈
      (run demoConf demoLib (demoInit 0 [1])
        (bootSteps ["1.1.1.1"] ++ connectSteps 5 ++ [(.worker 0, addrEnv)])).2 ∧
    isExcluded demoLib
      (decodeRules ((run demoConf demoLib (demoInit 0 [1]) (bootSteps ["1.1.1.1"])).1.store.get
        "exclude-ipv4-networks"))
      (decodeRules ((run demoConf demoLib (demoInit 0 [1]) (bootSteps ["1.1.1.1"])).1.store.get
        "exclude-ipv6-networks")) "2.2.2.2" = some false := by
  decide

section
variable (conf : Conf) (lib : Lib)

/-- Each edge of the master that adds to `pending`, with what `MasterOk` says of it. -/
theorem MasterMoves.pending_adds {s s' : Sys} {evs : List Event} (hm : MasterMoves conf lib s s' evs)
    (hok : MasterOk conf lib s) {x : String} (hx : Cmd.sadd .pending x ∈ evs.flatMap Event.writes) :
    s.Steady lib ∧
      ((∃ a, x = seedStr conf lib a ∧
          (isExcluded lib s.masterInst.current4 s.masterInst.current6 a = some false ∨
            a ∈ conf.onionNodes)) ∨
        (∃ a p sv, x = tripleStr lib (.str a, p, sv) ∧
          isExcluded lib s.masterInst.current4 s.masterInst.current6 a = some false) ∨
        ∃ t nodes rs dels adds, s.master = .rotate t nodes rs dels adds ∧
          ∃ n ∈ nodes, reseed lib n = some x) := by
  cases hm
  case seed sds n ns hs hn =>
    simp only [MasterOk, hs] at hok
    simp [Event.writes] at hx
    exact ⟨hok, .inl ⟨n, hx, .inl hn⟩⟩
  case onionSeed n ns hs =>
    simp only [MasterOk, hs] at hok
    simp [Event.writes] at hx
    exact ⟨hok.1, .inl ⟨n, hx, .inr (hok.2.subset (List.mem_cons_self _ _))⟩⟩
  case rotate t nodes rs dels adds hs =>
    simp only [MasterOk, hs] at hok
    simp [Event.writes, rotateCmds] at hx
    refine ⟨hok.1, .inr ?_⟩
    rcases hx with hx | hx
    exacts [.inr ⟨t, nodes, rs, dels, adds, hs, hok.2.1 x hx⟩, .inl (hok.2.2.2 x hx)]
  case checkedRaise | checked =>
    simp only [List.mem_flatMap, List.mem_map] at hx
    obtain ⟨_, ⟨_, -, rfl⟩, hx⟩ := hx
    simp [Event.writes] at hx
  all_goals (try split at hx) <;> simp [Event.writes, wipeCmds] at hx

end

/-- What the master adds to `pending`, in any reachable state, while it holds the published
lists: `set_pending`'s seeds that passed `is_excluded` under the lists it holds, or the configured
onion nodes; `restart`'s checked nodes that passed under them; and `restart`'s re-seeds of the
reachable nodes it read, which it does not check. -/
theorem master_pending_adds (conf : Conf) (lib : Lib) {s : Sys} (hs : Reachable conf lib s) (e : Env)
    (x : String) (hx : Cmd.sadd .pending x ∈ (masterStep conf lib s e).2.flatMap Event.writes) :
    s.Steady lib ∧
      ((∃ a, x = seedStr conf lib a ∧
          (isExcluded lib s.masterInst.current4 s.masterInst.current6 a = some false ∨
            a ∈ conf.onionNodes)) ∨
        (∃ a p sv, x = tripleStr lib (.str a, p, sv) ∧
          isExcluded lib s.masterInst.current4 s.masterInst.current6 a = some false) ∨
        ∃ t nodes rs dels adds, s.master = .rotate t nodes rs dels adds ∧
          ∃ n ∈ nodes, reseed lib n = some x) :=
  (masterStep_moves conf lib s e).pending_adds conf lib hs.rulesInv.master hx

/-- The master about to seed `1.1.1.1`, the one address its seeder resolved to. -/
def seedStart : Sys := (run demoConf demoLib (demoInit 1 []) ((bootSteps ["1.1.1.1"]).take 12)).1

theorem seed_add_passes :
    seedStart.Steady demoLib ∧
      ((∃ a, "('1.1.1.1', 8333, 1)" = seedStr demoConf demoLib a ∧
          (isExcluded demoLib seedStart.masterInst.current4 seedStart.masterInst.current6 a = some false ∨
            a ∈ demoConf.onionNodes)) ∨
        (∃ a p sv, "('1.1.1.1', 8333, 1)" = tripleStr demoLib (.str a, p, sv) ∧
          isExcluded demoLib seedStart.masterInst.current4 seedStart.masterInst.current6 a = some false) ∨
        ∃ t nodes rs dels adds, seedStart.master = .rotate t nodes rs dels adds ∧
          ∃ n ∈ nodes, reseed demoLib n = some "('1.1.1.1', 8333, 1)") :=
  master_pending_adds demoConf demoLib (.run _ (.init _ _ _ (by decide) (by simp))) quiet _ (by decide)

/-- The end of a pass, with a bogon list that now excludes `2.2.2.2`: `restart` up to the reload
of the IPv4 list. -/
def republishSteps : List (Actor × Env) :=
  List.replicate 7 (.master, quiet) ++ [(.master, { fetch := fun _ => "2.2.2.2/32" })] ++
    List.replicate 2 (.master, quiet)

/-- A master worker that kept the peer `2.2.2.2` under the lists of its pass, about to run its
pipeline after the master republished. -/
def staleStart : Sys :=
  (run demoConf demoLib (demoInit 1 [])
    (bootSteps ["1.1.1.1"] ++ connectSteps 4 ++ [(.worker 0, addrEnv)] ++ republishSteps)).1

/-- `connect` re-seeds the peers `get_peers` kept under the lists of that moment: here into
`pending`, an address the lists its instance now holds exclude. -/
theorem stale_peer_reseeded :
    Cmd.sadd .pending "('2.2.2.2', 8333, 1)" ∈
        (step demoConf demoLib staleStart (.worker 0) quiet).2.flatMap Event.writes ∧
      isExcluded demoLib (staleStart.instOf 0).current4 (staleStart.instOf 0).current6 "2.2.2.2" =
        some true := by
  decide

/-! ## What `update_excluded_networks` publishes

`list_excluded_networks(txt, networks=v4)` adds into the set it is given, and
`update_excluded_networks` gives it `CONF['exclude_ipv4_networks']` itself: the static lists
keep every network fetched so far, and each publish carries them all. -/

section
variable (conf : Conf) (lib : Lib)

end

/-- Start-up with a bogon list that returns `2.2.2.2/32`, then one pass whose fetch returns
nothing, up to the second publish of the IPv4 list. -/
def twoPublishSteps : List (Actor × Env) :=
  List.replicate 7 (.master, quiet) ++ [(.master, { fetch := fun _ => "2.2.2.2/32" })] ++
    List.replicate 15 (.master, quiet)

/-- Both publishes carry `2.2.2.2/32`, though the static list is empty and the second fetch
returned nothing, and the master's static list now holds it. -/
theorem bogons_outlive_their_list :
    (run demoConf demoLib (demoInit 0 []) twoPublishSteps).2.count
        (.cmd .master (.set "exclude-ipv4-networks" (rulesStr demoLib [(0x02020202, 0xffffffff)]))) = 2 ∧
      (run demoConf demoLib (demoInit 0 []) twoPublishSteps).1.masterInst.exclude4 =
        [(0x02020202, 0xffffffff)] ∧
      listExcludedNetworks demoLib demoConf.excludeIpv4Networks [] = [] ∧
      listExcludedNetworks demoLib "" [] = [] := by
  decide

end BitCrawler
