import BitCrawler.Passes
import BitCrawler.Stored

/-! # A reachable node keeps its claim

`task` skips, in discover mode, a node whose key `node:*` exists, and `connect` adds a reachable
node to `up` in the pipeline that also sets its key to `''`. In every reachable state, every
member of `up` still holds that claim (`Reachable.upClaimed`), so a claim check made in discover
mode while the node is in `up` skips it (`reachable_up_not_reconnected`); a worker that passed
its check before the node's pipeline ran still connects. The invariant rests on three facts:

* every write to a `node:*` key sets it to `''`: the claim, and `connect`'s pipeline, which sets
  its key before it adds it to `up` (`WorkerEvent.upClaimed`);
* the master sets only its own keys (`MasterMoves.set_keys`), and its two pipelines that delete
  `node:*` keys delete `up` first (`up_execAll_del_up`);
* an expiring key starts with `h`, `v` or `p` (`expiring_head`).
-/

namespace BitCrawler
set_option autoImplicit false
open Python

/-- Every member of `up` is a `node:*` key that holds its claim `''`. -/
def UpClaimed (st : Store) : Prop :=
  ∀ x ∈ st.up.members, x.data.head? = some 'n' ∧ st.get x = some ""

/-- A command that keeps `UpClaimed` whatever the store: it sets a `node:*` key only to `''`,
deletes neither `up` nor a `node:*` key, and adds nothing to `up`. -/
def Cmd.keepsUp : Cmd → Prop
  | .set k v => k.data.head? = some 'n' → v = ""
  | .sadd .up _ => False
  | .del k => k.data.head? ≠ some 'n' ∧ k ≠ "up"
  | _ => True

/-! ## One command -/

namespace UpClaimed

variable {st : Store}

theorem frame (h : UpClaimed st) {st' : Store} (hu : st'.up = st.up) (hs : st'.strs = st.strs) :
    UpClaimed st' := by
  intro x hx
  rw [hu] at hx
  exact (h x hx).imp_right fun hg => (congrArg (KMap.get · x) hs).trans hg

theorem of_nil (h : st.up.members = []) : UpClaimed st := by
  intro x hx
  rw [h] at hx
  cases hx

theorem exec (h : UpClaimed st) {c : Cmd} (hc : c.keepsUp) : UpClaimed (st.exec c) := by
  cases c with
  | sadd k m =>
    cases k with
    | pending => exact h.frame rfl rfl
    | up => exact hc.elim
  | set k v =>
    intro x hx
    obtain ⟨hn, hg⟩ := h x hx
    refine ⟨hn, ?_⟩
    by_cases hxk : x = k
    · subst hxk
      rw [hc hn]
      exact KMap.get_set_self _ _ _
    · exact (KMap.get_set_ne _ _ _ _ hxk).trans hg
  | lpush k v => cases k <;> exact h.frame rfl rfl
  | del k =>
    intro x hx
    have hx' : x ∈ st.up.members := by
      simpa only [Store.exec, Store.del_up, if_neg hc.2] using hx
    obtain ⟨hn, hg⟩ := h x hx'
    have hxk : x ≠ k := fun e => hc.1 (e ▸ hn)
    exact ⟨hn, (Store.get_del_ne st hxk).trans hg⟩

theorem execAll (h : UpClaimed st) {cmds : List Cmd} (hc : ∀ c ∈ cmds, c.keepsUp) :
    UpClaimed (st.execAll cmds) := by
  induction cmds generalizing st with
  | nil => exact h
  | cons c cmds ih =>
    rw [List.forall_mem_cons] at hc
    exact ih (h.exec hc.1) hc.2

theorem replay (h : UpClaimed st) {evs : List Event}
    (hevs : ∀ ev ∈ evs, ∀ st', UpClaimed st' → UpClaimed (st'.apply ev)) : UpClaimed (st.replay evs) := by
  induction evs generalizing st with
  | nil => exact h
  | cons ev evs ih =>
    rw [List.forall_mem_cons] at hevs
    exact ih (hevs.1 st h) hevs.2

/-- `connect`'s `SADD up key` right after its `SET key ''`. -/
theorem claim_up (h : UpClaimed st) {x : String} (hx : x.data.head? = some 'n') :
    UpClaimed ((st.exec (.set x "")).exec (.sadd .up x)) := by
  intro y hy
  rcases (RSet.mem_sadd _ _ _).1 hy with rfl | hy
  · exact ⟨hx, KMap.get_set_self _ _ _⟩
  · exact (h.exec (c := .set x "") fun _ => rfl) y hy

end UpClaimed

theorem up_execAll_del_up (st : Store) {cmds : List Cmd} (hc : ∀ c ∈ cmds, ∀ x, c ≠ .sadd .up x) :
    (st.execAll (.del "up" :: cmds)).up.members = [] := by
  rw [Store.execAll_cons]
  generalize hs : st.exec (.del "up") = st'
  have h0 : st'.up.members = [] := by
    subst hs
    simp [Store.exec]
  clear hs
  induction cmds generalizing st' with
  | nil => exact h0
  | cons c cmds ih =>
    rw [List.forall_mem_cons] at hc
    refine ih hc.2 _ ?_
    cases c with
    | sadd k m =>
      cases k with
      | pending => exact h0
      | up => exact absurd rfl (hc.1 m)
    | set k v => exact h0
    | lpush k v => cases k <;> exact h0
    | del k =>
      show (st'.del k).up.members = []
      rw [Store.del_up]
      split_ifs
      exacts [rfl, h0]

theorem expiring_head {k : String} (h : expiring k = true) : k.data.head? ≠ some 'n' := by
  intro hn
  cases hk : k.data with
  | nil => simp [hk] at hn
  | cons c cs =>
    simp only [hk, List.head?_cons, Option.some.injEq] at hn
    subst hn
    simp [expiring, hk, List.isPrefixOf] at h

/-- `connect`'s pipeline from its re-seeds on, where Redis refused the two `SET ... ex=`. -/
theorem UpClaimed.adds {st : Store} (h : UpClaimed st) (lib : Lib) (c : ConnectPipe)
    (peers : List Triple) : UpClaimed (st.execAll (c.adds lib peers)) := by
  rw [ConnectPipe.adds, Store.execAll_append]
  have hA : UpClaimed (st.execAll (peers.map fun t => .sadd .pending (tripleStr lib t))) := by
    refine h.execAll ?_
    simp only [List.mem_map]
    rintro _ ⟨_, -, rfl⟩
    exact trivial
  simp only [Store.execAll_cons, Store.execAll_nil]
  exact (hA.claim_up c.head_key).exec trivial

/-! ## Every step keeps it -/

/-- No worker event breaks `UpClaimed`: every `node:*` key a worker sets gets `''`, and
`connect` adds its key to `up` right after it sets it. -/
theorem WorkerEvent.upClaimed (lib : Lib) {w : Nat} {ev : Event} (hev : WorkerEvent lib w ev)
    {st : Store} (h : UpClaimed st) : UpClaimed (st.apply ev) := by
  cases hev
  case claim => exact h.exec fun _ => rfl
  case repush => exact h.exec trivial
  case cache c v => exact h.exec fun hn => absurd ((head_peerKey _ _).symm.trans hn) (by decide)
  case adds c peers => exact h.adds lib c peers
  case pipe c peers =>
    show UpClaimed (st.execAll (c.cmds lib peers))
    rw [ConnectPipe.cmds_eq, Store.execAll_append]
    refine UpClaimed.adds (h.execAll ?_) lib c peers
    simp only [List.mem_cons, List.not_mem_nil, or_false]
    rintro _ (rfl | rfl)
    · exact fun hn => absurd ((head_heightKey _ _ _).symm.trans hn) (by decide)
    · exact fun hn => absurd ((head_versionKey _ _).symm.trans hn) (by decide)
  all_goals exact h.frame rfl rfl

section
variable (conf : Conf) (lib : Lib)

/-- The master sets only its own keys: the state flag, `elapsed` and the two rule keys. -/
theorem MasterMoves.set_keys {s s' : Sys} {evs : List Event} (hm : MasterMoves conf lib s s' evs)
    {k v : String} (hc : .set k v ∈ evs.flatMap Event.writes) :
    k = "crawl:master:state" ∨ k = "elapsed" ∨ IsRuleKey k := by
  cases hm
  case checkedRaise | checked =>
    simp only [List.mem_flatMap, List.mem_map] at hc
    obtain ⟨_, ⟨_, -, rfl⟩, hc⟩ := hc
    cases hc
  all_goals (try split at hc) <;> simp_all [masterCmd, Event.writes, wipeCmds, rotateCmds, IsRuleKey]

theorem masterStep_upClaimed (s : Sys) (e : Env) (h : UpClaimed s.store) :
    UpClaimed (masterStep conf lib s e).1.store := by
  rw [masterStep_store]
  refine h.replay fun ev hev st h' => ?_
  have hk : ∀ k v, .set k v ∈ ev.writes → k.data.head? ≠ some 'n' := by
    intro k v hc
    rcases (masterStep_moves conf lib s e).set_keys conf lib (List.mem_flatMap.2 ⟨ev, hev, hc⟩) with
      rfl | rfl | rfl | rfl <;> decide
  cases masterStep_events conf lib s e ev hev with
  | set k v => exact h'.exec fun hn => absurd hn (hk k v (List.mem_singleton_self _))
  | seed x => exact h'.exec trivial
  | history v => exact h'.exec trivial
  | wipe dels | rotate rs dels adds =>
    refine UpClaimed.of_nil (up_execAll_del_up st fun c hc x hx => ?_)
    subst hx
    simp at hc
  | _ => exact h'

theorem step_upClaimed (s : Sys) (a : Actor) (e : Env) (h : UpClaimed s.store) :
    UpClaimed (step conf lib s a e).1.store := by
  cases a with
  | master => exact masterStep_upClaimed conf lib s e h
  | worker w =>
    show UpClaimed (workerStep conf lib s w e).1.store
    rw [workerStep_store]
    exact h.replay fun ev hev _ h' => (workerStep_events conf lib s w e ev hev).upClaimed lib h'
  | expire k =>
    show UpClaimed (expireStep s k).1.store
    unfold expireStep
    split
    · next hk =>
      show UpClaimed (s.store.exec (.del k))
      exact h.exec ⟨expiring_head hk.1, expiring_ne_up hk.1⟩
    · exact h

end

section
variable {conf : Conf} {lib : Lib}

theorem Reachable.upClaimed {s : Sys} (hs : Reachable conf lib s) : UpClaimed s.store := by
  induction hs with
  | init n ws check _ => exact UpClaimed.of_nil rfl
  | step a e _ ih => exact step_upClaimed conf lib _ a e ih
  | restart i _ ih => exact ih

/-- In every reachable state, a worker that checks the claim of a node in discover mode while
the node is in `up` skips it: the check itself finds the claim that `connect`'s pipeline left. -/
theorem reachable_up_not_reconnected {s : Sys} (hs : Reachable conf lib s) (w : Nat) (e : Env)
    {a : String} {p sv : Atom} (hc : s.pcOf w = .claimCheck false a p sv)
    (hu : taskKey a p sv ∈ s.store.up.members) :
    (workerStep conf lib s w e).1.pcOf w = .top := by
  have hw : w < s.workers.length := Sys.lt_of_pcOf_ne_dead (by simp [hc])
  have hg : s.store.strs.get (taskKey a p sv) = some "" := (hs.upClaimed _ hu).2
  simp [workerStep, hc, Store.exists, hg, hw]

/-- `getaddr` answers the first connection with the node itself and `2.2.2.2`. -/
def selfEnv : Env :=
  { sent := true, polls := [some [⟨2, some [⟨0, "1.1.1.1", "", "", 8333, 1⟩,
      ⟨0, "2.2.2.2", "", "", 8333, 1⟩]⟩]] }

/-- The worker pops `1.1.1.1` again, which its first connection found reachable and re-seeded. -/
def revisitSelf : Sys :=
  (run demoConf demoLib fetchStart
    ([(.worker 0, selfEnv)] ++ List.replicate 3 (.worker 0, { coin := false, pick := 1 }))).1

theorem revisit_skipped :
    (workerStep demoConf demoLib revisitSelf 0 quiet).1.pcOf 0 = .top :=
  reachable_up_not_reconnected (.run _ (.run _ (.init _ _ _ (by decide) (by simp)))) 0 quiet
    (show revisitSelf.pcOf 0 = .claimCheck false "1.1.1.1" (.int 8333) (.int 1) by decide) (by decide)

end

end BitCrawler
