import BitCrawler.Passes

/-! # Mempool mode and `mempool_pending`

A task iteration chooses mempool mode on a saturated `up` or on the coin. It then takes the
head of `mempool_pending` and pushes it back, or, when that list is empty, falls back to
`spop('pending')`. The popped node is dropped only at a gate and otherwise gets the session
of the iteration's mode, whichever queue it came from (`spop_follows_gates`). The `lpush` puts the entry back at the head
it was taken from (`lpop_repush_restores`), and every `connect` pipeline pushes one entry while
only the start-up's wipe removes any (`mempool_accounts`). The pushed entry is the one of the
key `connect` was called with, not the rewritten key it adds to `up`.
-/

namespace BitCrawler
set_option autoImplicit false
open Python

/-! ## Where a popped node goes -/

/-- The claim key of the node a popped entry names, where `eval` gives one. -/
def entryKey (entry : String) : Option String :=
  ((eval entry).bind entryNode).map fun n => taskKey n.1 n.2.1 n.2.2

/-- The events that start and end worker `w`'s iterations: its pops and its session starts. -/
def Event.iterOf (w : Nat) : Event → Bool
  | .spop w' _ _ | .lpop w' _ | .connect w' _ | .ask w' _ => w' == w
  | _ => false

/-- The events of worker `w`'s task iterations: its pops, its claim checks and CIDR gates, and
the starts of its sessions. -/
def Event.taskOf (w : Nat) : Event → Bool
  | .spop w' _ _ | .lpop w' _ | .exists w' _ _ | .incr w' _ _ | .connect w' _ | .ask w' _ => w' == w
  | _ => false

/-- The next task event of `w`, if there is one, is a pop: the iteration dropped its node. -/
def NextPop (w : Nat) (evs : List Event) : Prop :=
  ∀ ev ∈ evs.head?, (∃ m x, ev = .spop w m x) ∨ ∃ x, ev = .lpop w x

/-- The next task event of `w`, if there is one, starts the session of mode `m` on `key`:
`ask_mempool` in mempool mode, `connect` otherwise. -/
def NextSession (w : Nat) (m : Bool) (key : String) (evs : List Event) : Prop :=
  ∀ ev ∈ evs.head?, ev = if m then .ask w key else .connect w key

theorem nextPop_nil (w : Nat) : NextPop w [] := nofun

theorem nextSession_nil (w : Nat) (m : Bool) (key : String) : NextSession w m key [] := nofun

section
variable (conf : Conf) (lib : Lib)

/-- From the CIDR gate of the node `(a, p, sv)` on: the `INCR` of its prefix counter, then the
drop past the cap, or the session. -/
def FromCidr (w : Nat) (m : Bool) (a : String) (p sv : Atom) : List Event → Prop
  | [] => True
  | ev :: rest => ∃ n, ev = .incr w (cidrOf conf lib a) n ∧
      if conf.nodesPerIpv6Prefix < n then NextPop w rest else NextSession w m (taskKey a p sv) rest

/-- From the claim check of the node `(a, p, sv)` on: its `EXISTS`, the drop of a claimed node
in discover mode, then the CIDR gate of an IPv6 node, or the session. -/
def FromCheck (w : Nat) (m : Bool) (a : String) (p sv : Atom) : List Event → Prop
  | [] => True
  | ev :: rest => ∃ b, ev = .exists w (taskKey a p sv) b ∧
      if b = true ∧ m = false then NextPop w rest
      else if ':' ∈ a.data ∧ conf.ipv6Prefix < 128 then FromCidr conf lib w m a p sv rest
      else NextSession w m (taskKey a p sv) rest

/-- Where worker `w` stands on the track of the iteration on `(a, p, sv)` in mode `m`, and what
its task events are from there on: `False` off that track. -/
def Pc.future (w : Nat) (m : Bool) (a : String) (p sv : Atom) : Pc → List Event → Prop
  | .claimCheck m' a' p' sv', evs =>
    m' = m ∧ a' = a ∧ p' = p ∧ sv' = sv ∧ FromCheck conf lib w m a p sv evs
  | .cidr m' a' p' sv', evs => m' = m ∧ a' = a ∧ p' = p ∧ sv' = sv ∧ FromCidr conf lib w m a p sv evs
  | .claim a' p' sv', evs =>
    m = false ∧ a' = a ∧ p' = p ∧ sv' = sv ∧ NextSession w m (taskKey a p sv) evs
  | .mempool a' p' sv', evs =>
    m = true ∧ a' = a ∧ p' = p ∧ sv' = sv ∧ NextSession w m (taskKey a p sv) evs
  | .dead, evs => evs = []
  | .spawn, evs | .top, evs | .choose, evs | .refresh4, evs | .refresh6, evs | .lpop, evs
  | .spop _, evs => NextPop w evs
  | _, _ => False

theorem future_session {w : Nat} {m : Bool} {a : String} {p sv : Atom} {evs : List Event} :
    (session m a p sv).future conf lib w m a p sv evs ↔ NextSession w m (taskKey a p sv) evs := by
  cases m <;> simp [session, Pc.future]

/-- One step of worker `w` on the track: its task events settle what follows, or it moves on
along the track to a point whose future gives the one it left. -/
theorem Moves.future {s : Sys} {w : Nat} {p p' : Pc} {evs : List Event} {m : Bool} {a : String}
    {pp sv : Atom} (hm : Moves conf lib s w p p' evs) (h : p.future conf lib w m a pp sv []) :
    (∀ rest, p.future conf lib w m a pp sv (evs.filter (Event.taskOf w) ++ rest)) ∨
      (p'.future conf lib w m a pp sv [] ∧ ∀ rest, p'.future conf lib w m a pp sv rest →
        p.future conf lib w m a pp sv (evs.filter (Event.taskOf w) ++ rest)) := by
  cases hm with
  | idle => exact .inr ⟨h, fun _ hr => hr⟩
  | choose _ hp ask =>
    rcases hp with ⟨rfl, -⟩ | rfl <;> cases ask <;> exact .inr ⟨nextPop_nil w, fun _ hr => hr⟩
  | gate _ _ hp => rcases hp with rfl | rfl <;> exact .inr ⟨nextPop_nil w, fun _ hr => hr⟩
  | refresh4 _ hp | refresh6 _ hp =>
    rcases hp with rfl | rfl
    · exact .inr ⟨nextPop_nil w, fun _ hr => hr⟩
    · exact .inr ⟨rfl, fun _ hr => by subst hr; exact nextPop_nil w⟩
  | lpopEmpty | spopEmpty => exact .inr ⟨nextPop_nil w, fun _ hr => hr⟩
  | lpop v => exact .inl fun _ => by simp [Pc.future, NextPop, Event.taskOf]
  | spop m' v => exact .inl fun _ => by cases m' <;> simp [Pc.future, NextPop, Event.taskOf]
  | claimed a' p' sv' =>
    obtain ⟨rfl, rfl, rfl, rfl, -⟩ := h
    refine .inr ⟨nextPop_nil w, fun rest hr => ⟨rfl, rfl, rfl, rfl, ?_⟩⟩
    simpa [Event.taskOf, FromCheck] using hr
  | claimCheck m' a' p' sv' q hg hq =>
    obtain ⟨rfl, rfl, rfl, rfl, -⟩ := h
    simp only [List.filter_cons, List.filter_nil, Event.taskOf, beq_self_eq_true, if_true,
      List.singleton_append]
    rcases hq with ⟨hc, rfl⟩ | ⟨hc, rfl⟩
    · exact .inr ⟨⟨rfl, rfl, rfl, rfl, trivial⟩, fun rest hr =>
        ⟨rfl, rfl, rfl, rfl, _, rfl, by rw [if_neg hg, if_pos hc]; exact hr.2.2.2.2⟩⟩
    · exact .inr ⟨(future_session conf lib).2 (nextSession_nil w _ _), fun rest hr =>
        ⟨rfl, rfl, rfl, rfl, _, rfl, by rw [if_neg hg, if_neg hc]; exact (future_session conf lib).1 hr⟩⟩
  | cidr m' a' p' sv' q hq =>
    obtain ⟨rfl, rfl, rfl, rfl, -⟩ := h
    simp only [List.filter_cons, List.filter_nil, Event.taskOf, beq_self_eq_true, if_true,
      List.singleton_append]
    rcases hq with ⟨hc, rfl⟩ | ⟨hc, rfl⟩
    · exact .inr ⟨nextPop_nil w, fun rest hr => ⟨rfl, rfl, rfl, rfl, _, rfl, by rw [if_pos hc]; exact hr⟩⟩
    · exact .inr ⟨(future_session conf lib).2 (nextSession_nil w _ _), fun rest hr =>
        ⟨rfl, rfl, rfl, rfl, _, rfl, by rw [if_neg (not_lt.2 hc)]; exact (future_session conf lib).1 hr⟩⟩
  | claim a' p' sv' =>
    obtain ⟨rfl, rfl, rfl, rfl, -⟩ := h
    exact .inl fun _ => ⟨rfl, rfl, rfl, rfl, by simp [NextSession, Event.taskOf]⟩
  | mempool a' p' sv' =>
    obtain ⟨rfl, rfl, rfl, rfl, -⟩ := h
    exact .inl fun _ => ⟨rfl, rfl, rfl, rfl, by simp [NextSession, Event.taskOf]⟩
  | _ => cases h

end

/-- The entry a command pushes onto `mempool_pending`. -/
def Cmd.pushes : Cmd → List String
  | .lpush .mempoolPending v => [v]
  | _ => []

/-- The entries a pipeline pushes onto `mempool_pending`; a worker's lone `lpush` only puts back
the entry it popped. -/
def Event.pushed : Event → List String
  | .pipe _ cmds => cmds.flatMap Cmd.pushes
  | _ => []

/-- The entry a worker popped from `mempool_pending` and has not put back yet. -/
def Pc.held : Pc → List String
  | .repush v => [v]
  | _ => []

/-- The entries the workers hold between their `lpop` and their `lpush`. -/
def Sys.held (s : Sys) : List String := s.workers.flatMap fun wk => wk.pc.held

namespace Store

theorem exec_mempool (st : Store) (c : Cmd) (h : c ≠ .del "mempool_pending") :
    (st.exec c).mempoolPending = c.pushes ++ st.mempoolPending := by
  cases c with
  | sadd k m => cases k <;> rfl
  | set k v => rfl
  | lpush k v => cases k <;> rfl
  | del k =>
    have hk : k ≠ "mempool_pending" := fun hk => h (hk ▸ rfl)
    simp only [exec, del]
    split_ifs <;> rfl

theorem execAll_mempool (st : Store) (cmds : List Cmd) (h : .del "mempool_pending" ∉ cmds) :
    List.Perm (st.execAll cmds).mempoolPending (cmds.flatMap Cmd.pushes ++ st.mempoolPending) := by
  induction cmds generalizing st with
  | nil => rfl
  | cons c cmds ih =>
    rw [List.mem_cons, not_or] at h
    simp only [execAll_cons, List.flatMap_cons, List.append_assoc]
    refine (ih _ h.2).trans ?_
    rw [exec_mempool st c (Ne.symm h.1)]
    exact List.perm_iff_count.2 fun x => by simp only [List.count_append]; omega

theorem apply_mempool (st : Store) (ev : Event) (hd : .del "mempool_pending" ∉ ev.writes)
    (hl : ∀ w v, ev ≠ .lpop w v) :
    List.Perm (st.apply ev).mempoolPending (ev.writes.flatMap Cmd.pushes ++ st.mempoolPending) := by
  cases ev with
  | cmd a c =>
    rw [apply, exec_mempool st c fun h => hd (by simp [Event.writes, h])]
    simp [Event.writes]
  | pipe a cmds => exact execAll_mempool st cmds hd
  | lpop w v => exact absurd rfl (hl w v)
  | _ => rfl

end Store

theorem Store.replay_mempool (st : Store) (evs : List Event)
    (hd : ∀ ev ∈ evs, .del "mempool_pending" ∉ ev.writes) (hl : ∀ ev ∈ evs, ∀ w v, ev ≠ .lpop w v) :
    List.Perm (st.replay evs).mempoolPending
      (evs.flatMap (fun ev => ev.writes.flatMap Cmd.pushes) ++ st.mempoolPending) := by
  induction evs generalizing st with
  | nil => rfl
  | cons ev evs ih =>
    simp only [List.forall_mem_cons] at hd hl
    refine (ih _ hd.2 hl.2).trans ?_
    have h := (st.apply_mempool ev hd.1 hl.1).append_left (evs.flatMap fun ev => ev.writes.flatMap Cmd.pushes)
    refine h.trans (List.perm_iff_count.2 fun x => ?_)
    simp only [List.flatMap_cons, List.count_append]
    omega

theorem MasterEvent.pushes_nil {ev : Event} (h : MasterEvent ev) :
    ev.writes.flatMap Cmd.pushes = [] ∧ ev.pushed = [] := by
  cases h <;> simp [Event.writes, Event.pushed, Cmd.pushes, wipeCmds, rotateCmds]

theorem Sys.held_setPc (s : Sys) (w : Nat) (p : Pc) (hw : w < s.workers.length) :
    List.Perm ((s.setPc w p).held ++ (s.pcOf w).held) (s.held ++ p.held) := by
  obtain ⟨l₁, wk, l₂, hs, hl, hm⟩ :=
    List.exists_of_modify (fun wk : Worker => { wk with pc := p }) hw
  have hpc : s.pcOf w = wk.pc := by
    simp [Sys.pcOf, Sys.worker, hs, ← hl, List.getD_eq_getElem?_getD, List.getElem_append_right]
  simp only [Sys.held, Sys.setPc]
  rw [hm, hpc, hs]
  simp only [List.flatMap_append, List.flatMap_cons]
  exact List.perm_iff_count.2 fun x => by simp only [List.count_append]; omega

theorem held_spawnWorkers (s : Sys) : (spawnWorkers s).held = s.held := by
  simp only [Sys.held, spawnWorkers, List.flatMap_map]
  congr 1
  funext wk
  split_ifs with h
  · simp [h.2, Pc.held]
  · rfl

section
variable (conf : Conf) (lib : Lib)

theorem workerStep_held (s : Sys) (w : Nat) (e : Env) :
    List.Perm ((workerStep conf lib s w e).1.held ++ (s.pcOf w).held)
      (s.held ++ ((workerStep conf lib s w e).1.pcOf w).held) := by
  by_cases hw : w < s.workers.length
  · have h := Sys.held_setPc s w ((workerStep conf lib s w e).1.pcOf w) hw
    rwa [Sys.held, (workerStep_frame conf lib s w e).1] at *
  · have := Sys.pcOf_of_le s w (Nat.le_of_not_lt hw)
    simp only [workerStep, this, List.Perm.refl]

theorem pushed_exclusions (a : Actor) (r4 r6 : Option Rules) (l : List (String × Bool)) :
    (l.map fun x => Event.exclusion a r4 r6 x.1 x.2).flatMap Event.pushed = [] := by
  induction l with
  | nil => rfl
  | cons x l ih => simp only [List.map_cons, List.flatMap_cons, ih]; rfl

theorem held_afterPop (m : Bool) (v : String) : (afterPop conf m v).held = [] := by
  unfold afterPop
  split <;> (try split_ifs) <;> rfl

theorem held_session (m : Bool) (a : String) (p s : Atom) : (session m a p s).held = [] := by
  cases m <;> rfl

/-- What one step of a worker does to `mempool_pending` and to the entry it holds. -/
theorem Moves.accounts {w : Nat} {s : Sys} {p p' : Pc} {evs : List Event}
    (hm : Moves conf lib s w p p' evs) (hd : ∀ ev ∈ evs, .del "mempool_pending" ∉ ev.writes) :
    List.Perm ((s.store.replay evs).mempoolPending ++ p'.held)
      (s.store.mempoolPending ++ p.held ++ evs.flatMap Event.pushed) := by
  cases hm with
  | idle => simp
  | choose _ hp ask => rcases hp with ⟨rfl, -⟩ | rfl <;> cases ask <;> simp [Pc.held]
  | gate _ _ hp | refresh4 _ hp | refresh6 _ hp => rcases hp with rfl | rfl <;> simp [Pc.held]
  | lpopEmpty | spopEmpty | claimed => simp [Store.apply, Pc.held, Event.pushed]
  | lpop v rest h => simp [Store.apply, h, Pc.held, Event.pushed, List.perm_middle]
  | repush v =>
    rw [held_afterPop]
    simpa [Store.apply, Store.exec, Store.lpush, Pc.held, Event.pushed] using
      (List.perm_append_singleton v s.store.mempoolPending).symm
  | spop =>
    rw [held_afterPop]
    simp [Store.apply, Pc.held, Event.pushed]
  | claimCheck _ _ _ _ _ _ hp | cidr _ _ _ _ _ hp =>
    rcases hp with ⟨-, rfl⟩ | ⟨-, rfl⟩ <;> (try rw [held_session]) <;>
      simp [Store.apply, Pc.held, Event.pushed]
  | handshake _ _ _ _ hp =>
    rcases hp with rfl | rfl | ⟨c, -, rfl⟩ | ⟨c, peers, -, rfl⟩ <;> simp [Pc.held]
  | claim | mempool _ _ _ _ hp =>
    try rcases hp with rfl | rfl
    all_goals simp [Store.apply, Store.exec, Store.set, Pc.held, Event.pushed]
  | fetchRaise | fetch =>
    simp [Store.replay_append, replay_exclusions, pushed_exclusions, Store.apply, Store.exec,
      Store.set, Pc.held, Event.pushed]
  | execute c peers | executeRaise c peers =>
    simpa [Pc.held, Event.pushed] using
      (Store.execAll_mempool s.store _ (by simpa [Event.writes] using hd)).trans List.perm_append_comm

/-- What one step does to `mempool_pending` together with the entries the workers hold: only a
pipeline adds to them, and only the start-up's wipe takes from them. -/
theorem step_mempool (s : Sys) (a : Actor) (e : Env)
    (hd : ∀ ev ∈ (step conf lib s a e).2, .del "mempool_pending" ∉ ev.writes) :
    List.Perm ((step conf lib s a e).1.store.mempoolPending ++ (step conf lib s a e).1.held)
      (s.store.mempoolPending ++ s.held ++ (step conf lib s a e).2.flatMap Event.pushed) := by
  rw [step_store]
  cases a with
  | worker w =>
    simp only [step] at hd ⊢
    have h1 := List.perm_iff_count.1 ((workerStep_moves conf lib s w e).accounts conf lib hd)
    have h2 := List.perm_iff_count.1 (workerStep_held conf lib s w e)
    refine List.perm_iff_count.2 fun x => ?_
    specialize h1 x
    specialize h2 x
    simp only [List.count_append] at h1 h2 ⊢
    omega
  | master =>
    have hev := masterStep_events conf lib s e
    have hw : (masterStep conf lib s e).1.held = s.held := by
      rcases masterStep_workers conf lib s e with h | ⟨-, h⟩
      · simp only [Sys.held, h]
      · rw [Sys.held, h]
        exact held_spawnWorkers s
    have hp : ∀ ev ∈ (masterStep conf lib s e).2, ev.writes.flatMap Cmd.pushes = [] ∧ ev.pushed = [] :=
      fun ev h => (hev ev h).pushes_nil
    have hm := Store.replay_mempool s.store _ hd fun ev h w v he => by cases he ▸ hev ev h
    simp only [step, hw, List.flatMap_eq_nil_iff.2 fun ev h => (hp ev h).2,
      List.flatMap_eq_nil_iff.2 fun ev h => (hp ev h).1, List.nil_append, List.append_nil] at hm ⊢
    exact hm.append_right _
  | expire k =>
    by_cases h : expiring k = true ∧ (s.store.get k).isSome = true
    · simp only [step, expireStep, h, and_self, if_true, List.forall_mem_singleton, Event.writes,
        List.mem_singleton, Cmd.del.injEq] at hd ⊢
      simp only [Store.replay_cons, Store.replay_nil, Store.apply, Store.exec, Store.del]
      split_ifs <;> simp_all [Sys.held, Event.pushed]
    · simp [step, expireStep, h]

/-- Between two wipes by the start-up, `mempool_pending` with the entries the workers popped and
have not put back is what it was, plus one entry for each pipeline push: nothing leaves it. -/
theorem mempool_accounts (s : Sys) (steps : List (Actor × Env))
    (hd : ∀ ev ∈ (run conf lib s steps).2, .del "mempool_pending" ∉ ev.writes) :
    List.Perm ((run conf lib s steps).1.store.mempoolPending ++ (run conf lib s steps).1.held)
      (s.store.mempoolPending ++ s.held ++ (run conf lib s steps).2.flatMap Event.pushed) := by
  induction steps generalizing s with
  | nil => simp
  | cons x l ih =>
    obtain ⟨a, e⟩ := x
    rw [run_cons] at hd ⊢
    simp only [List.mem_append, or_imp, forall_and] at hd
    refine (ih _ hd.2).trans ?_
    simpa only [List.flatMap_append, List.append_assoc] using
      (step_mempool conf lib s a e hd.1).append_right _

end

/-- After the race, workers 0 and 1 both finish their sessions on `1.1.1.1`: the first fetches
no peers, the second finds the empty list in the peer cache. -/
def duplicateSteps : List (Actor × Env) :=
  raceSteps ++ [(.worker 0, { hello := some (demoHello 1) }), (.worker 0, quiet), (.worker 0, quiet),
    (.worker 1, { hello := some (demoHello 1) }), (.worker 1, quiet)]

theorem duplicate_accounts :
    (∀ ev ∈ (run demoConf demoLib raceStart duplicateSteps).2, .del "mempool_pending" ∉ ev.writes) ∧
      List.Perm ((run demoConf demoLib raceStart duplicateSteps).1.store.mempoolPending ++
          (run demoConf demoLib raceStart duplicateSteps).1.held)
        (raceStart.store.mempoolPending ++ raceStart.held ++
          (run demoConf demoLib raceStart duplicateSteps).2.flatMap Event.pushed) :=
  ⟨by decide, mempool_accounts demoConf demoLib raceStart duplicateSteps (by decide)⟩

/-- Two entries for one endpoint, and more entries than endpoints ever reached. -/
theorem mempool_holds_duplicate :
    (run demoConf demoLib raceStart duplicateSteps).1.store.mempoolPending.count
        "['1.1.1.1', '8333', '1']" = 2 ∧
      (run demoConf demoLib raceStart duplicateSteps).1.store.up.members.length <
        (run demoConf demoLib raceStart duplicateSteps).1.store.mempoolPending.length := by
  decide

/-! ## Mempool mode's round robin -/

/-- A mempool-mode iteration that pops the head of `mempool_pending` pushes it back at the head:
the pair of commands leaves the list as it was. -/
theorem lpop_repush_restores (conf : Conf) (lib : Lib) (s : Sys) (w : Nat) (e e' : Env)
    (v : String) (rest : List String) (hpc : s.pcOf w = .lpop)
    (hm : s.store.mempoolPending = v :: rest) :
    (run conf lib s [(.worker w, e), (.worker w, e')]).1.store.mempoolPending = v :: rest ∧
      (run conf lib s [(.worker w, e), (.worker w, e')]).2 =
        [.lpop w v, .cmd (.worker w) (.lpush .mempoolPending v)] := by
  have hw : w < s.workers.length := Sys.lt_of_pcOf_ne_dead (by simp [hpc])
  simp [run, step, workerStep, hpc, hm, hw, Store.lpop, Store.lpush]

/-- A deployment whose `mempool_pending` holds `entries`, with one worker at the head of `task`. -/
def roundRobinStart (entries : List String) : Sys :=
  ⟨{ Store.empty with mempoolPending := entries }, [Inst.init demoConf demoLib], [⟨0, .top⟩], .cron 0⟩

/-- `k` iterations of worker 0 in mempool mode, each ending with `ask_mempool`. -/
def mempoolRounds (k : Nat) : List (Actor × Env) :=
  (List.replicate k [(.worker 0, { coin := true }), (.worker 0, quiet), (.worker 0, quiet),
    (.worker 0, quiet), (.worker 0, quiet)]).flatten

/-- Two mempool iterations over three entries dequeue the first entry twice and leave the list
as it was. -/
theorem mempool_rounds_repeat_head :
    (run demoConf demoLib (roundRobinStart ["['1.1.1.1', '8333', '1']", "['2.2.2.2', '8333', '1']",
        "['3.3.3.3', '8333', '1']"]) (mempoolRounds 2)).2.filter (Event.iterOf 0) =
      [.lpop 0 "['1.1.1.1', '8333', '1']", .ask 0 "node:1.1.1.1-8333-1",
        .lpop 0 "['1.1.1.1', '8333', '1']", .ask 0 "node:1.1.1.1-8333-1"] ∧
    (run demoConf demoLib (roundRobinStart ["['1.1.1.1', '8333', '1']", "['2.2.2.2', '8333', '1']",
        "['3.3.3.3', '8333', '1']"]) (mempoolRounds 2)).1.store.mempoolPending =
      ["['1.1.1.1', '8333', '1']", "['2.2.2.2', '8333', '1']", "['3.3.3.3', '8333', '1']"] := by
  decide

/-! ## What a `mempool_pending` entry names -/

/-- The seed answers the handshake with services 9 where `pending` said 1. -/
def rewriteSteps : List (Actor × Env) :=
  bootSteps ["1.1.1.1"] ++
  [(.worker 0, quiet), (.worker 0, quiet), (.worker 0, quiet), (.worker 0, quiet),
    (.worker 0, { hello := some (demoHello 9) }), (.worker 0, quiet), (.worker 0, quiet)]

/-- `up` holds the rewritten key, `mempool_pending` the entry of the original one. -/
theorem mempool_entry_not_up :
    (run demoConf demoLib (demoInit 1 []) rewriteSteps).1.store.up.members = ["node:1.1.1.1-8333-9"] ∧
      (run demoConf demoLib (demoInit 1 []) rewriteSteps).1.store.mempoolPending.map entryKey =
        [some "node:1.1.1.1-8333-1"] := by
  decide

end BitCrawler
