import BitCrawler.Rules

/-! # The pass history and the snapshot

At the end of a pass `restart` pushes `str((timestamp, len(nodes)))` on the list `nodes`, with
`nodes` the members of `up` it read, and then `dump` writes `<timestamp>.json` with one row per
node. The two are many steps apart, with every worker and every expiry free to run in between.
They still agree (`reachable_snapshot_counted`):

* no worker and no expiry touches `nodes` (`step_nodes`);
* the master reaches `dump` only from that push, then one node at a time (`MasterMoves.reaches_dump`);
* so while `dump` runs, the head of `nodes` counts the rows written and the nodes still to do
  (`HistoryOk`), and `dump` writes its snapshot, when it has rows, at its last node
  (`MasterMoves.snapshot`).
-/

namespace BitCrawler
set_option autoImplicit false
open Python

/-- `str((timestamp, reachable_nodes))`: the entry `restart` pushes on `nodes`. -/
def historyEntry (lib : Lib) (t : Int) (n : Nat) : String :=
  (Value.item (.tuple [.int t, .int n])).str lib.printable

/-! ## Who writes `nodes` -/

/-- A command that leaves the list `nodes` alone. -/
def Cmd.keepsNodes : Cmd → Prop
  | .lpush .nodes _ => False
  | .del k => k ≠ "nodes"
  | _ => True

namespace Store

theorem nodes_exec (st : Store) {c : Cmd} (h : c.keepsNodes) : (st.exec c).nodes = st.nodes := by
  cases c with
  | sadd k m => cases k <;> rfl
  | set k v => rfl
  | lpush k v =>
    cases k with
    | mempoolPending => rfl
    | nodes => exact h.elim
  | del k =>
    show (st.del k).nodes = st.nodes
    unfold del
    split_ifs <;> first | rfl | exact absurd ‹_› h

theorem nodes_execAll (st : Store) {cmds : List Cmd} (h : ∀ c ∈ cmds, c.keepsNodes) :
    (st.execAll cmds).nodes = st.nodes := by
  induction cmds generalizing st with
  | nil => rfl
  | cons c cmds ih =>
    rw [List.forall_mem_cons] at h
    rw [execAll_cons, ih _ h.2, nodes_exec _ h.1]

theorem nodes_replay (st : Store) {evs : List Event} (h : ∀ ev ∈ evs, ∀ c ∈ ev.writes, c.keepsNodes) :
    (st.replay evs).nodes = st.nodes := by
  induction evs generalizing st with
  | nil => rfl
  | cons ev evs ih =>
    rw [List.forall_mem_cons] at h
    rw [replay_cons, ih _ h.2]
    cases ev with
    | cmd a c => exact nodes_exec _ (h.1 c (List.mem_singleton_self _))
    | pipe a cmds => exact nodes_execAll _ h.1
    | _ => rfl

end Store

theorem ConnectPipe.adds_keepsNodes (lib : Lib) (c : ConnectPipe) (peers : List Triple) :
    ∀ x ∈ c.adds lib peers, x.keepsNodes := by
  simp only [ConnectPipe.adds, List.mem_append, List.mem_cons, List.mem_map, List.not_mem_nil, or_false]
  rintro _ (⟨_, -, rfl⟩ | rfl | rfl | rfl) <;> exact True.intro

theorem WorkerEvent.keepsNodes (lib : Lib) {w : Nat} {ev : Event} (h : WorkerEvent lib w ev) :
    ∀ c ∈ ev.writes, c.keepsNodes := by
  cases h
  case pipe c peers =>
    rw [Event.writes, ConnectPipe.cmds_eq]
    rintro _ (_ | ⟨_, _ | ⟨_, h⟩⟩)
    exacts [True.intro, True.intro, c.adds_keepsNodes lib peers _ h]
  case adds c peers => exact c.adds_keepsNodes lib peers
  all_goals simp [Event.writes, Cmd.keepsNodes]

section
variable (conf : Conf) (lib : Lib)

/-- No worker and no expiry touches `nodes`. -/
theorem step_nodes (s : Sys) (a : Actor) (e : Env) (ha : a ≠ .master) :
    (step conf lib s a e).1.store.nodes = s.store.nodes := by
  rw [step_store]
  refine Store.nodes_replay _ fun ev hev => ?_
  have hk := step_events conf lib s a e ev hev
  cases a with
  | master => exact absurd rfl ha
  | worker w => exact hk.keepsNodes lib
  | expire k =>
    obtain ⟨hk, rfl⟩ := hk
    simp only [Event.writes, List.mem_singleton, forall_eq, Cmd.keepsNodes]
    rintro rfl
    exact absurd hk (by decide)

/-! ## The master between the push and the snapshot -/

/-- The master reaches `dump` only from `restart`'s push on `nodes`, with no row yet, or from
`dump` itself one node further on, with the store unchanged. -/
theorem MasterMoves.reaches_dump {s s' : Sys} {evs : List Event} (hm : MasterMoves conf lib s s' evs)
    {t : Int} {todo : List String} {rows : List Row} (h : s'.master = .dump t todo rows) :
    (s.master = .history t todo ∧ rows = [] ∧
      s'.store = s.store.lpush .nodes (historyEntry lib t todo.length)) ∨
    ∃ n r rows', s.master = .dump t (n :: todo) rows' ∧ rows = rows' ++ [r] ∧ s'.store = s.store := by
  cases hm
  case history t' nodes hs =>
    simp only [masterCmd, MPc.dump.injEq] at h
    obtain ⟨rfl, rfl, rfl⟩ := h
    exact .inl ⟨hs, rfl, rfl⟩
  case dump t' n todo' rows' a pv sv hk ht hs _ _ =>
    simp only [MPc.dump.injEq] at h
    obtain ⟨rfl, rfl, rfl⟩ := h
    exact .inr ⟨n, _, rows', hs, rfl, rfl⟩
  case dead hs => rw [hs] at h; cases h
  all_goals first | cases h | (split at h <;> cases h) | (cases ‹Ret› <;> cases h)

/-- `dump` writes its snapshot at its last node, and only when it has rows. -/
theorem MasterMoves.snapshot {s s' : Sys} {evs : List Event} (hm : MasterMoves conf lib s s' evs)
    {t : Int} {rows : List Row} (h : .snapshot t rows ∈ evs) : s.master = .dump t [] rows ∧ rows ≠ [] := by
  cases hm
  case dumpEnd t' rows' hs =>
    split_ifs at h with hr
    · cases h
    · simp only [List.mem_singleton, Event.snapshot.injEq] at h
      obtain ⟨rfl, rfl⟩ := h
      exact ⟨hs, hr⟩
  all_goals simp at h

/-- Only the master writes a snapshot. -/
theorem step_snapshot (s : Sys) (a : Actor) (e : Env) {t : Int} {rows : List Row}
    (h : .snapshot t rows ∈ (step conf lib s a e).2) : s.master = .dump t [] rows ∧ rows ≠ [] := by
  have hk := step_events conf lib s a e _ h
  cases a with
  | master => exact (masterStep_moves conf lib s e).snapshot conf lib h
  | worker w => cases hk
  | expire k => cases hk.2

/-! ## Every step keeps them in agreement -/

/-- While `dump` runs, the head of `nodes` is the entry `restart` pushed for the same pass, and
counts the rows written and the nodes still to dump. -/
def HistoryOk (lib : Lib) (s : Sys) : Prop :=
  ∀ t todo rows, s.master = .dump t todo rows →
    s.store.nodes.head? = some (historyEntry lib t (rows.length + todo.length))

theorem step_historyOk (s : Sys) (a : Actor) (e : Env) (h : HistoryOk lib s) :
    HistoryOk lib (step conf lib s a e).1 := by
  intro t todo rows hd
  by_cases ha : a = .master
  · subst ha
    rcases (masterStep_moves conf lib s e).reaches_dump conf lib hd with ⟨-, rfl, hst⟩ | ⟨n, r, rows', hm, rfl, hst⟩
    · simp only [step, hst, Store.lpush, List.head?_cons, List.length_nil, Nat.zero_add]
    · simp only [step, hst, h t _ _ hm, List.length_append, List.length_cons, List.length_nil]
      congr 2
      omega
  · rw [step_nodes conf lib s a e ha]
    exact h t todo rows ((step_master_ne conf lib s a e ha).symm.trans hd)

end

section
variable {conf : Conf} {lib : Lib}

theorem Reachable.historyOk {s : Sys} (hs : Reachable conf lib s) : HistoryOk lib s := by
  induction hs with
  | init n ws check _ => exact fun _ _ _ h => nomatch h
  | step a e _ ih => exact step_historyOk conf lib _ a e ih
  | restart i _ ih =>
    intro t todo rows hd
    simp only [Sys.restart_master, Sys.restart_store] at hd ⊢
    split at hd
    · cases hd
    · exact ih t todo rows hd

/-- In every reachable state, a snapshot `dump` writes is not empty, and the
head of `nodes` is `restart`'s entry for the same timestamp, counting exactly its rows: no
worker and no expiry touches that list while `dump` runs. -/
theorem reachable_snapshot_counted {s : Sys} (hs : Reachable conf lib s) (a : Actor) (e : Env)
    {t : Int} {rows : List Row} (h : .snapshot t rows ∈ (step conf lib s a e).2) :
    rows ≠ [] ∧ s.store.nodes.head? = some (historyEntry lib t rows.length) := by
  obtain ⟨hm, hr⟩ := step_snapshot conf lib s a e h
  exact ⟨hr, hs.historyOk t [] rows hm⟩

/-- The example's first pass, at `dump`'s last node: `1.1.1.1` answered, so `up` held it. -/
def dumpEnd : Sys :=
  (run demoConf demoLib fetchStart
    ([(.worker 0, quiet), (.worker 0, quiet)] ++ List.replicate 13 (.master, quiet))).1

theorem first_snapshot_counted :
    [(("1.1.1.1", 8333, 1, 800000) : Row)] ≠ [] ∧
      dumpEnd.store.nodes.head? = some (historyEntry demoLib 0 1) :=
  reachable_snapshot_counted (.run _ (.run _ (.init _ _ _ (by decide) (by simp)))) .master quiet (by decide)

end

end BitCrawler
