import BitCrawler.Failures

/-! # What the store holds

`task`, `connect`, `restart` and `dump` take apart with `eval`, `split` and `int` what the
crawler's own processes wrote. In every reachable state (`Reachable.sysOk`):

* an entry of `pending` is `str((address, port, services))` with a string address;
* an entry of `mempool_pending` is `str(key[5:].split('-', 2))` of a key that split in three;
* a member of `up` splits into an address, an integer port and integer services;
* a `peer:*` key holds `str(peers)` of a peer list with string addresses;
* a `height:*` key holds `str` of an integer;
* a rule key holds `str` of a rule list;

and so does what a worker or the master carries from one step to the next (`PcOk`,
`MPc.nodes`). A write keeps this when it is `CmdOk`, and every write of every step is.
-/

namespace BitCrawler
set_option autoImplicit false
open Python

/-! ## The texts each key holds -/

/-- An entry of `mempool_pending` as `connect` writes it: `str(key_tuple)` of three parts. -/
def MempoolEntry (lib : Lib) (x : String) : Prop := ∃ a p s, x = partsStr lib [a, p, s]

/-- A node key whose address, port and services `connect` can take apart. -/
def UpKey (x : String) : Prop := ∃ ses, sessionParse x = some ses

/-- `str(peers)` of a list of peers `(address, port, services, timestamp)`, the form of what
`get_cached_peers` caches; the invariant keeps the form, not which `get_peers` call it came
from. -/
def CachedPeers (lib : Lib) (v : String) : Prop := ∃ peers, v = (peersValue peers).str lib.printable

/-- The queues and key families of the store hold what the crawler writes into them. -/
structure StoreOk (lib : Lib) (st : Store) : Prop where
  pending : ∀ x ∈ st.pending.members, PendingEntry lib x
  mempool : ∀ x ∈ st.mempoolPending, MempoolEntry lib x
  up : ∀ x ∈ st.up.members, UpKey x
  cache : ∀ a port v, st.get (peerKey a port) = some v → CachedPeers lib v
  heights : ∀ a p s v, st.get (heightKey a p s) = some v → ∃ h : Int, v = toString h
  rules : ∀ k v, IsRuleKey k → st.get k = some v → ∃ r, v = rulesStr lib r

/-- A write that keeps `StoreOk`. -/
def CmdOk (lib : Lib) : Cmd → Prop
  | .sadd .pending x => PendingEntry lib x
  | .sadd .up x => UpKey x
  | .lpush .mempoolPending x => MempoolEntry lib x
  | .lpush .nodes _ => True
  | .set k v => (∀ a port, k = peerKey a port → CachedPeers lib v) ∧
      (∀ a p s, k = heightKey a p s → ∃ h : Int, v = toString h) ∧
      (IsRuleKey k → ∃ r, v = rulesStr lib r)
  | .del _ => True

/-! ## One write at a time -/

namespace Store

theorem mem_pending_exec {st : Store} {c : Cmd} {x : String} (h : x ∈ (st.exec c).pending.members) :
    x ∈ st.pending.members ∨ c = .sadd .pending x := by
  cases c with
  | sadd k m =>
    cases k
    · rcases (RSet.mem_sadd _ _ _).1 h with rfl | h
      exacts [.inr rfl, .inl h]
    · exact .inl h
  | set k v => exact .inl h
  | lpush k v => cases k <;> exact .inl h
  | del k =>
    simp only [exec, del_pending] at h
    split_ifs at h
    · simp at h
    · exact .inl h

theorem mem_up_exec' {st : Store} {c : Cmd} {x : String} (h : x ∈ (st.exec c).up.members) :
    x ∈ st.up.members ∨ c = .sadd .up x := by
  cases c with
  | sadd k m =>
    cases k
    · exact .inl h
    · rcases (RSet.mem_sadd _ _ _).1 h with rfl | h
      exacts [.inr rfl, .inl h]
  | set k v => exact .inl h
  | lpush k v => cases k <;> exact .inl h
  | del k =>
    simp only [exec, del_up] at h
    split_ifs at h
    · simp at h
    · exact .inl h

theorem mem_mempool_exec {st : Store} {c : Cmd} {x : String} (h : x ∈ (st.exec c).mempoolPending) :
    x ∈ st.mempoolPending ∨ c = .lpush .mempoolPending x := by
  cases c with
  | sadd k m => cases k <;> exact .inl h
  | set k v => exact .inl h
  | lpush k v =>
    cases k
    · rcases List.mem_cons.1 h with rfl | h
      exacts [.inr rfl, .inl h]
    · exact .inl h
  | del k =>
    simp only [exec, del_mempoolPending] at h
    split_ifs at h
    · simp at h
    · exact .inl h

theorem get_exec_some {st : Store} {c : Cmd} {k v : String} (h : (st.exec c).get k = some v) :
    st.get k = some v ∨ c = .set k v := by
  cases c with
  | sadd k' m => cases k' <;> exact .inl h
  | lpush k' m => cases k' <;> exact .inl h
  | set k' v' =>
    by_cases hk : k = k'
    · subst hk
      rw [get_exec_set, Option.some.injEq] at h
      exact .inr (h ▸ rfl)
    · exact .inl ((KMap.get_set_ne _ _ _ _ hk).symm.trans h)
  | del d =>
    refine .inl ?_
    by_cases hk : k = d
    · subst hk
      revert h
      show (st.del k).get k = some v → st.get k = some v
      unfold del
      repeat' split
      all_goals first | exact id | simp [get]
    · exact (get_del_ne st hk).symm.trans h

end Store

section
variable {lib : Lib}

theorem StoreOk.exec {st : Store} (h : StoreOk lib st) {c : Cmd} (hc : CmdOk lib c) :
    StoreOk lib (st.exec c) := by
  refine ⟨fun x hx => ?_, fun x hx => ?_, fun x hx => ?_, fun a port v hv => ?_, fun a p s v hv => ?_,
    fun k v hk hv => ?_⟩
  · rcases Store.mem_pending_exec hx with hx | rfl
    exacts [h.pending x hx, hc]
  · rcases Store.mem_mempool_exec hx with hx | rfl
    exacts [h.mempool x hx, hc]
  · rcases Store.mem_up_exec' hx with hx | rfl
    exacts [h.up x hx, hc]
  · rcases Store.get_exec_some hv with hv | rfl
    exacts [h.cache a port v hv, hc.1 a port rfl]
  · rcases Store.get_exec_some hv with hv | rfl
    exacts [h.heights a p s v hv, hc.2.1 a p s rfl]
  · rcases Store.get_exec_some hv with hv | rfl
    exacts [h.rules k v hk hv, hc.2.2 hk]

theorem StoreOk.execAll {st : Store} (h : StoreOk lib st) {cmds : List Cmd}
    (hc : ∀ c ∈ cmds, CmdOk lib c) : StoreOk lib (st.execAll cmds) := by
  induction cmds generalizing st with
  | nil => exact h
  | cons c cmds ih =>
    exact ih (h.exec (hc c (List.mem_cons_self _ _))) fun c' h' => hc c' (List.mem_cons_of_mem _ h')

theorem StoreOk.apply {st : Store} (h : StoreOk lib st) {ev : Event}
    (hev : ∀ c ∈ ev.writes, CmdOk lib c) : StoreOk lib (st.apply ev) := by
  cases ev with
  | cmd a c => exact h.exec (hev c (List.mem_singleton_self _))
  | pipe a cmds => exact h.execAll hev
  | incr w k n => exact ⟨h.pending, h.mempool, h.up, h.cache, h.heights, h.rules⟩
  | lpop w v => exact ⟨h.pending, fun x hx => h.mempool x (List.mem_of_mem_tail hx), h.up, h.cache,
      h.heights, h.rules⟩
  | spop w m v => exact ⟨fun x hx => h.pending x ((RSet.mem_srem _ _ _).1 hx).2, h.mempool, h.up,
      h.cache, h.heights, h.rules⟩
  | _ => exact h

theorem StoreOk.replay {st : Store} (h : StoreOk lib st) {evs : List Event}
    (hevs : ∀ ev ∈ evs, ∀ c ∈ ev.writes, CmdOk lib c) : StoreOk lib (st.replay evs) := by
  induction evs generalizing st with
  | nil => exact h
  | cons ev evs ih =>
    exact ih (h.apply (hevs ev (List.mem_cons_self _ _))) fun ev' h' => hevs ev' (List.mem_cons_of_mem _ h')

end

/-! ## Keys and entries read back -/

theorem head_nodeKey (a p s : String) : (nodeKey a p s).data.head? = some 'n' := by
  simp only [nodeKey, String.data_append]
  rfl

theorem head_heightKey (a p s : String) : (heightKey a p s).data.head? = some 'h' := by
  simp only [heightKey, String.data_append]
  rfl

theorem head_versionKey (a p : String) : (versionKey a p).data.head? = some 'v' := by
  simp only [versionKey, String.data_append]
  rfl

theorem head_peerKey (a : String) (port : Int) : (peerKey a port).data.head? = some 'p' := by
  simp only [peerKey, String.data_append]
  rfl

theorem ConnectPipe.head_key (c : ConnectPipe) : c.key.data.head? = some 'n' := by
  unfold ConnectPipe.key upKey ConnectPipe.claimKey taskKey
  split_ifs <;> exact head_nodeKey _ _ _

/-- A `SET` of a key that starts with neither `p` nor `h` and is no rule key writes no peer list,
no height and no rule list. -/
theorem cmdOk_set {lib : Lib} {k v : String} (hp : k.data.head? ≠ some 'p')
    (hh : k.data.head? ≠ some 'h') (hr : ¬ IsRuleKey k) : CmdOk lib (.set k v) :=
  ⟨fun a port e => (hp (e ▸ head_peerKey a port)).elim,
    fun a p s e => (hh (e ▸ head_heightKey a p s)).elim, fun h => (hr h).elim⟩

/-- `update_excluded_networks` publishes a rule list as its `str`. -/
theorem cmdOk_rules {lib : Lib} {k : String} (hk : IsRuleKey k) (r : Rules) :
    CmdOk lib (.set k (rulesStr lib r)) :=
  ⟨fun a port e => (peerKey_ne_ruleKey hk a port e.symm).elim,
    fun a p s e => (heightKey_ne_ruleKey hk a p s e.symm).elim, fun _ => ⟨r, rfl⟩⟩

theorem sessionParse_some {x : String} {ses : Session} (h : sessionParse x = some ses) :
    keyParts x = [ses.address, ses.port, ses.services] ∧ toInt ses.port = some ses.portNum ∧
      toInt ses.services = some ses.servicesNum := by
  unfold sessionParse at h
  split at h
  · simp only [Option.bind_eq_some, Option.map_eq_some'] at h
    obtain ⟨sv, hsv, pv, hpv, rfl⟩ := h
    exact ⟨‹_›, hpv, hsv⟩
  · cases h

/-- The key `connect` publishes in `up` is one it can take apart again, rewritten or not: the
address and port of a key that split hold no `-`. -/
theorem ConnectPipe.upKey_key (c : ConnectPipe) (h : sessionParse c.claimKey = some c.session) :
    UpKey c.key := by
  unfold ConnectPipe.key upKey
  split_ifs
  · obtain ⟨hk, hp, -⟩ := sessionParse_some h
    obtain ⟨ha, hp'⟩ := not_mem_split_two (show split (drop 5 c.claimKey) '-' 2 = _ from hk)
    exact ⟨⟨c.session.address, c.session.port, toString c.hello.services, c.hello.services,
      c.session.portNum⟩, by simp only [sessionParse, keyParts_nodeKey _ _ _ ha hp', toInt_toString, hp,
        Option.some_bind, Option.map_some']⟩
  · exact ⟨_, h⟩

theorem afterPop_ne_dead (conf : Conf) (m : Bool) {v : String}
    (h : ((eval v).bind entryNode).isSome) : afterPop conf m v ≠ .dead := by
  unfold afterPop
  split
  · simp_all
  · split_ifs <;> nofun

/-- `task` reads an entry of `pending` as a node. -/
theorem PendingEntry.afterPop (conf : Conf) (m : Bool) {lib : Lib} {v : String}
    (h : PendingEntry lib v) : afterPop conf m v ≠ .dead := by
  obtain ⟨a, p, s, rfl⟩ := h
  exact afterPop_ne_dead conf m (by simp [tripleStr, eval_str, entryNode])

/-- `task` reads an entry of `mempool_pending` as a node. -/
theorem MempoolEntry.afterPop (conf : Conf) (m : Bool) {lib : Lib} {v : String}
    (h : MempoolEntry lib v) : afterPop conf m v ≠ .dead := by
  obtain ⟨a, p, s, rfl⟩ := h
  exact afterPop_ne_dead conf m (by simp [partsStr, eval_str, entryNode])

theorem mem_stripPeers {t : Triple} {peers : List Peer} (h : t ∈ stripPeers peers) :
    ∃ p ∈ peers, t = peerTriple p := by
  suffices hf : ∀ (ts acc : List Triple), t ∈ ts.foldl (fun acc t => acc.insert t) acc → t ∈ acc ∨ t ∈ ts by
    rcases hf _ [] h with h | h
    · cases h
    · simpa [eq_comm] using h
  intro ts
  induction ts with
  | nil => exact fun _ h => .inl h
  | cons u ts ih =>
    intro acc h
    rcases ih _ h with h | h
    · rcases List.mem_insert_iff.1 h with rfl | h
      exacts [.inr (List.mem_cons_self _ _), .inl h]
    · exact .inr (List.mem_cons_of_mem _ h)

/-- A cached peer list reads back, with `eval` and the comprehension, as endpoints with string
addresses. -/
theorem CachedPeers.read {lib : Lib} {v : String} (h : CachedPeers lib v) :
    ∃ peers, (eval v).bind stripTimestamps = some peers ∧ ∀ t ∈ peers, ∃ a, t.1 = .str a := by
  obtain ⟨ps, rfl⟩ := h
  refine ⟨stripPeers ps, by rw [eval_str, Option.some_bind, stripTimestamps_peersValue], fun t ht => ?_⟩
  obtain ⟨p, -, rfl⟩ := mem_stripPeers ht
  exact ⟨p.1, rfl⟩

/-! ## What a worker carries -/

/-- What a worker holds between two steps, as its next step reads it: the entry it popped from
`mempool_pending`, and in `connect` the key it took apart and the peers it will re-seed. -/
def PcOk (lib : Lib) : Pc → Prop
  | .repush v => MempoolEntry lib v
  | .fetch c => sessionParse c.claimKey = some c.session
  | .execute c peers => sessionParse c.claimKey = some c.session ∧ ∀ t ∈ peers, ∃ a, t.1 = .str a
  | _ => True

/-- Events that send no write keep every store invariant. -/
theorem cmdOk_of_silent {lib : Lib} {evs : List Event} (h : evs.flatMap Event.writes = []) :
    ∀ ev ∈ evs, ∀ c ∈ ev.writes, CmdOk lib c := by
  intro ev hev c hc
  have hc' : c ∈ evs.flatMap Event.writes := List.mem_flatMap.2 ⟨ev, hev, hc⟩
  rw [h] at hc'
  cases hc'

section
variable (conf : Conf) (lib : Lib)

theorem pcOk_afterPop (m : Bool) (v : String) : PcOk lib (afterPop conf m v) := by
  unfold afterPop
  split <;> (try split_ifs) <;> exact True.intro

theorem pcOk_session (m : Bool) (a : String) (pp sv : Atom) : PcOk lib (session m a pp sv) := by
  cases m <;> exact True.intro

/-- Every write of `connect`'s pipeline keeps `StoreOk`. -/
theorem ConnectPipe.cmds_ok (c : ConnectPipe) (peers : List Triple) (h : PcOk lib (.execute c peers)) :
    ∀ x ∈ c.cmds lib peers, CmdOk lib x := by
  intro x hx
  simp only [ConnectPipe.cmds, List.mem_append, List.mem_cons, List.mem_map, List.not_mem_nil,
    or_false] at hx
  rcases hx with ((rfl | rfl) | ⟨⟨_, t2, t3⟩, ht, rfl⟩) | rfl | rfl | rfl
  · refine ⟨fun a port e => ?_, fun _ _ _ _ => ⟨_, rfl⟩, fun hk => (heightKey_ne_ruleKey hk _ _ _ rfl).elim⟩
    have h1 : c.heightKey.data.head? = some 'h' := head_heightKey _ _ _
    have := (head_peerKey a port).symm.trans (e ▸ h1)
    simp at this
  · exact cmdOk_set (by rw [head_versionKey]; decide) (by rw [head_versionKey]; decide)
      fun hk => versionKey_ne_ruleKey hk _ _ rfl
  · obtain ⟨a, rfl⟩ := h.2 _ ht
    exact ⟨a, t2, t3, rfl⟩
  · exact cmdOk_set (by rw [c.head_key]; decide) (by rw [c.head_key]; decide) fun hk => c.key_ne_ruleKey hk rfl
  · exact c.upKey_key h.1
  · exact ⟨_, _, _, rfl⟩

theorem sessionParse_of_opens {st : Store} {key : String} {ses : Session}
    (h : opens conf st key = some ses) : sessionParse key = some ses := by
  obtain ⟨ses', h1, h2⟩ := Option.bind_eq_some.1 h
  split_ifs at h2
  cases h2
  exact h1

theorem get_of_cached {st : Store} {key v : String} (h : cached st key = some v) :
    st.get key = some v := by
  unfold cached at h
  split at h
  · split_ifs at h
    cases h
    assumption
  · cases h

/-- What `connect` holds after the handshake: the session of the key it was called with and, on a
cache hit, endpoints with string addresses, read back from the cache. -/
theorem workerStep_handshake_ok (s : Sys) (w : Nat) (e : Env) {a : String} {pp sv : Atom}
    (h : s.pcOf w = .handshake a pp sv) (hst : StoreOk lib s.store) :
    PcOk lib ((workerStep conf lib s w e).1.pcOf w) := by
  have hw : w < s.workers.length := Sys.lt_of_pcOf_ne_dead (by simp [h])
  simp only [workerStep, h]
  split
  · simp only [Sys.pcOf_setPc_self, hw, if_true]
    exact True.intro
  · simp only [Sys.pcOf_setPc_self, hw, if_true]
    exact True.intro
  · rename_i ses hello hop _
    have hses := sessionParse_of_opens conf hop
    split
    · simp only [Sys.pcOf_setPc_self, hw, if_true]
      exact hses
    · rename_i v hv
      split
      · simp only [Sys.pcOf_setPc_self, hw, if_true]
        exact True.intro
      · rename_i peers hpeers
        simp only [Sys.pcOf_setPc_self, hw, if_true]
        obtain ⟨peers', hread, hstr⟩ := (hst.cache _ _ v (get_of_cached hv)).read
        rw [hread, Option.some.injEq] at hpeers
        exact ⟨hses, hpeers ▸ hstr⟩

/-- A worker's step keeps what it carries and writes only what `StoreOk` allows. -/
theorem Moves.ok {s : Sys} {w : Nat} {p p' : Pc} {evs : List Event}
    (hm : Moves conf lib s w p p' evs) (hst : StoreOk lib s.store) (hp : PcOk lib p)
    (hh : ∀ a pp sv, p = .handshake a pp sv → PcOk lib p') :
    PcOk lib p' ∧ ∀ ev ∈ evs, ∀ c ∈ ev.writes, CmdOk lib c := by
  cases hm with
  | idle => exact ⟨hp, cmdOk_of_silent rfl⟩
  | choose _ _ ask => exact ⟨by cases ask <;> exact True.intro, cmdOk_of_silent rfl⟩
  | gate _ _ h | refresh4 _ h | refresh6 _ h | mempool _ _ _ _ h =>
    exact ⟨by rcases h with rfl | rfl <;> exact True.intro, cmdOk_of_silent rfl⟩
  | lpop v rest h => exact ⟨hst.mempool v (h ▸ List.mem_cons_self _ _), cmdOk_of_silent rfl⟩
  | repush v =>
    refine ⟨pcOk_afterPop conf lib _ _, ?_⟩
    simpa only [Event.writes, List.mem_singleton, forall_eq, CmdOk] using hp
  | spop m v => exact ⟨pcOk_afterPop conf lib _ _, cmdOk_of_silent rfl⟩
  | claimCheck m a pp sv _ _ h | cidr m a pp sv _ h =>
    refine ⟨?_, cmdOk_of_silent rfl⟩
    rcases h with ⟨-, rfl⟩ | ⟨-, rfl⟩
    exacts [True.intro, pcOk_session lib _ _ _ _]
  | claim a pp sv =>
    refine ⟨True.intro, ?_⟩
    simp only [List.mem_cons, List.not_mem_nil, or_false, forall_eq_or_imp, forall_eq, Event.writes,
      List.mem_singleton]
    exact ⟨nofun, cmdOk_set (by rw [taskKey, head_nodeKey]; decide) (by rw [taskKey, head_nodeKey]; decide)
      fun hk => nodeKey_ne_ruleKey hk _ _ _ rfl⟩
  | handshake a pp sv => exact ⟨hh a pp sv rfl, cmdOk_of_silent rfl⟩
  | fetchRaise c evald =>
    refine ⟨True.intro, ?_⟩
    simp only [List.mem_map]
    rintro _ ⟨x, -, rfl⟩ c hc
    cases hc
  | fetch c evald peers =>
    refine ⟨⟨hp, fun t ht => ?_⟩, ?_⟩
    · obtain ⟨q, -, rfl⟩ := mem_stripPeers ht
      exact ⟨q.1, rfl⟩
    · simp only [List.mem_append, List.mem_map, List.mem_singleton]
      rintro ev (⟨x, -, rfl⟩ | rfl) c hc
      · cases hc
      · rw [Event.writes, List.mem_singleton] at hc
        subst hc
        refine ⟨fun _ _ _ => ⟨peers, rfl⟩, fun a' p s e => ?_, fun hk => (peerKey_ne_ruleKey hk _ _ rfl).elim⟩
        have := (head_peerKey _ _).symm.trans (e ▸ head_heightKey a' p s)
        simp at this
  | execute c peers => exact ⟨True.intro, by simpa [Event.writes] using c.cmds_ok lib peers hp⟩
  | executeRaise c peers =>
    have hadd : ∀ x ∈ c.adds lib peers, CmdOk lib x := fun x hx =>
      c.cmds_ok lib peers hp x (by rw [ConnectPipe.cmds_eq]; exact List.mem_append_right _ hx)
    exact ⟨True.intro, by simpa [Event.writes] using hadd⟩
  | _ => exact ⟨True.intro, cmdOk_of_silent rfl⟩

end

/-! ## What the master carries -/

/-- The members of `up` that `restart` read and the master still carries: re-seeded and rotated,
then counted into `nodes` and dumped one by one. -/
def MPc.nodes : MPc → List String
  | .scanNodes _ nodes _ | .scanCidr _ nodes _ _ | .checked _ nodes _ _ | .rotate _ nodes _ _ _
  | .publish4 (.restart _ nodes) | .publish6 (.restart _ nodes) _ | .reload4 (.restart _ nodes)
  | .reload6 (.restart _ nodes) | .history _ nodes | .dump _ nodes _ => nodes
  | _ => []

section
variable (conf : Conf) (lib : Lib)

theorem reseed_pending {n r : String} (h : reseed lib n = some r) : PendingEntry lib r := by
  unfold reseed at h
  split at h
  · simp only [Option.bind_eq_some, Option.map_eq_some'] at h
    obtain ⟨_, -, _, -, rfl⟩ := h
    exact ⟨_, _, _, rfl⟩
  · cases h

/-- The nodes the master carries are those it carried, or the members of `up` it just read. -/
theorem MasterMoves.nodes {s s' : Sys} {evs : List Event} (hm : MasterMoves conf lib s s' evs) {n : String}
    (hn : n ∈ s'.master.nodes) : n ∈ s.master.nodes ∨ n ∈ s.store.up.members := by
  cases hm
  case members => exact .inr hn
  case dump hs _ _ => rw [hs]; exact .inl (List.mem_cons_of_mem _ hn)
  all_goals (try cases ‹Ret›) <;> (try split at hn) <;> first
    | exact absurd hn (List.not_mem_nil _)
    | exact .inl hn
    | (rw [‹s.master = _›]; exact .inl hn)

/-- Every write of the master keeps `StoreOk`: its `SET`s are of its own keys, and what it adds
to `pending` are seeds, the re-seeds of `up` and checked nodes, all tuples with a string
address. -/
theorem MasterMoves.cmdOk {s s' : Sys} {evs : List Event} (hm : MasterMoves conf lib s s' evs)
    (hok : MasterOk conf lib s) {c : Cmd} (hc : c ∈ evs.flatMap Event.writes) : CmdOk lib c := by
  cases hm
  case seed n _ _ _ | onionSeed n _ _ =>
    simp [masterCmd, Event.writes] at hc
    subst hc
    exact ⟨n, _, _, rfl⟩
  case rotate t nodes rs dels adds hs =>
    simp only [MasterOk, hs] at hok
    simp only [List.flatMap_cons, List.flatMap_nil, Event.writes, List.append_nil,
      rotateCmds, List.mem_append, List.mem_singleton, List.mem_map] at hc
    rcases hc with ((rfl | ⟨r, hr, rfl⟩) | ⟨d, -, rfl⟩) | ⟨x, hx, rfl⟩
    · trivial
    · obtain ⟨n, -, hn⟩ := hok.2.1 r hr
      exact reseed_pending lib hn
    · trivial
    · obtain ⟨a, p, sv, rfl, -⟩ := hok.2.2.2 x hx
      exact ⟨a, p, sv, rfl⟩
  case wipe =>
    simp only [List.flatMap_cons, List.flatMap_nil, Event.writes, List.append_nil,
      wipeCmds, List.mem_append, List.mem_cons, List.mem_map, List.not_mem_nil, or_false] at hc
    rcases hc with ((rfl | rfl) | ⟨d, -, rfl⟩) | rfl <;> trivial
  case checkedRaise | checked =>
    simp only [List.mem_flatMap, List.mem_map] at hc
    obtain ⟨_, ⟨_, -, rfl⟩, hc⟩ := hc
    cases hc
  all_goals (try split at hc) <;> simp [masterCmd, Event.writes] at hc
  all_goals subst hc
  all_goals first
    | exact True.intro
    | exact cmdOk_rules (.inl rfl) _
    | exact cmdOk_rules (.inr rfl) _
    | exact cmdOk_set (by decide) (by decide) (by unfold IsRuleKey; decide)

end

/-! ## Every step keeps it -/

/-- What every reachable state holds for the reads to come: the store, what each worker carries,
and the members of `up` the master's `restart` read. -/
structure SysOk (lib : Lib) (s : Sys) : Prop where
  store : StoreOk lib s.store
  pcs : ∀ w, PcOk lib (s.pcOf w)
  nodes : ∀ n ∈ s.master.nodes, UpKey n

section
variable (conf : Conf) (lib : Lib)

theorem sysOk_init (n : Nat) (ws : List Nat) (check : List (String × Int)) :
    SysOk lib (Sys.init conf lib n ws check) := by
  refine ⟨⟨fun _ h => (nomatch h), fun _ h => (nomatch h), fun _ h => (nomatch h),
    fun _ _ _ h => Option.noConfusion (h : none = _), fun _ _ _ _ h => Option.noConfusion (h : none = _),
    fun _ _ _ h => Option.noConfusion (h : none = _)⟩,
    fun w => ?_, fun _ h => (nomatch h)⟩
  simp only [Sys.pcOf, Sys.worker, Sys.init, List.getD_eq_getElem?_getD, List.getElem?_map]
  cases ws[w]? <;> simp only [Option.map_none', Option.map_some', Option.getD_none, Option.getD_some] <;>
    (try split) <;> exact True.intro

theorem workerStep_sysOk (s : Sys) (w : Nat) (e : Env) (h : SysOk lib s) :
    SysOk lib (workerStep conf lib s w e).1 := by
  have hok := (workerStep_moves conf lib s w e).ok conf lib h.store (h.pcs w)
    fun _ _ _ hp => workerStep_handshake_ok conf lib s w e hp h.store
  refine ⟨?_, fun w' => ?_, ?_⟩
  · rw [workerStep_store]
    exact h.store.replay hok.2
  · by_cases hw : w' = w
    · subst hw
      exact hok.1
    · rw [workerStep_pcOf_ne conf lib s e hw]
      exact h.pcs w'
  · rw [workerStep_master]
    exact h.nodes

theorem masterStep_sysOk (s : Sys) (e : Env) (h : SysOk lib s) (hr : RulesInv conf lib s) :
    SysOk lib (masterStep conf lib s e).1 := by
  refine ⟨?_, fun w => ?_, fun n hn => ?_⟩
  · rw [masterStep_store]
    exact h.store.replay fun ev hev c hc =>
      (masterStep_moves conf lib s e).cmdOk conf lib hr.master (List.mem_flatMap.2 ⟨ev, hev, hc⟩)
  · rcases masterStep_workers conf lib s e with hw | ⟨-, hw⟩
    · have : (masterStep conf lib s e).1.pcOf w = s.pcOf w := by simp only [Sys.pcOf, Sys.worker, hw]
      exact this ▸ h.pcs w
    · have : (masterStep conf lib s e).1.pcOf w = (spawnWorkers s).pcOf w := by
        simp only [Sys.pcOf, Sys.worker, hw]
      rw [this, pcOf_spawnWorkers]
      split_ifs
      exacts [True.intro, h.pcs w]
  · rcases (masterStep_moves conf lib s e).nodes conf lib hn with hn | hn
    exacts [h.nodes n hn, h.store.up n hn]

theorem expireStep_sysOk (s : Sys) (k : String) (h : SysOk lib s) : SysOk lib (expireStep s k).1 := by
  unfold expireStep
  split
  · have hst : StoreOk lib (s.store.apply (.cmd (.expire k) (.del k))) :=
      h.store.apply fun c hc => by
        rw [Event.writes, List.mem_singleton] at hc
        exact hc ▸ True.intro
    exact ⟨hst, h.pcs, h.nodes⟩
  · exact h

/-- A restarted process carries nothing yet: its workers are at the top of `main` or `task`,
and a restarted master has read no member of `up`. -/
theorem sysOk_restart (s : Sys) (i : Nat) (h : SysOk lib s) : SysOk lib (s.restart conf lib i) := by
  refine ⟨h.store, fun w => ?_, fun n hn => ?_⟩
  · rw [Sys.restart_pcOf]
    split_ifs
    exacts [True.intro, True.intro, h.pcs w]
  · simp only [Sys.restart_master] at hn
    split at hn
    · exact absurd hn (List.not_mem_nil _)
    · exact h.nodes n hn

theorem step_sysOk (s : Sys) (a : Actor) (e : Env) (h : SysOk lib s) (hr : RulesInv conf lib s) :
    SysOk lib (step conf lib s a e).1 := by
  cases a with
  | master => exact masterStep_sysOk conf lib s e h hr
  | worker w => exact workerStep_sysOk conf lib s w e h
  | expire k => exact expireStep_sysOk lib s k h

end

section
variable {conf : Conf} {lib : Lib}

/-- Every reachable state holds `SysOk`. -/
theorem Reachable.sysOk {s : Sys} (hs : Reachable conf lib s) : SysOk lib s := by
  induction hs with
  | init n ws check _ => exact sysOk_init conf lib n ws check
  | step a e hs ih => exact step_sysOk conf lib _ a e ih hs.rulesInv
  | restart i _ ih => exact sysOk_restart conf lib _ i ih

/-- In every reachable state, each key the crawler reads back holds what its
reader takes apart: `pending` and `mempool_pending` entries unpack, members of `up` split into an
address and two integers, `peer:*` holds a peer list, `height:*` an integer and a rule key a rule
list. -/
theorem reachable_store_ok {s : Sys} (hs : Reachable conf lib s) : StoreOk lib s.store :=
  hs.sysOk.store

/-- A master worker about to fetch its first peers. -/
theorem fetch_start_store_ok : StoreOk demoLib fetchStart.store :=
  reachable_store_ok (.run _ (.init _ _ _ (by decide) (by simp)))

end

end BitCrawler
