import BitCrawler.Python.Literal
import Mathlib.Data.List.Nodup

/-! # The coordination store

Every instance of the crawler talks to one Redis database. `Store` holds the keys `crawl.py`
uses, by kind:

* the sets `pending` and `up` (`RSet`: a member list with no repeats);
* the lists `mempool_pending` and `nodes`, head first;
* the string keys (`node:*`, `height:*`, `version:*`, `peer:*`, `crawl:master:state`,
  `exclude-ipv4-networks`, `exclude-ipv6-networks`, `elapsed`, `height`);
* the `INCR` counters `crawl:cidr:*`;
* the sorted set `check`, which another program writes and this one only reads.

Each Redis command the crawler sends is one function here. A pipeline buffers `Cmd`s and
`Store.execAll` runs them in order, within one step of the system. `keys p` is what
`utils.get_keys(redis_conn, p + '*')` returns; that helper is not in the repository, and it is
modelled as one scan of the key space.
-/

namespace BitCrawler
set_option autoImplicit false

/-- A Redis set of strings. -/
structure RSet where
  members : List String
  nodup : members.Nodup

instance : DecidableEq RSet := fun a b =>
  decidable_of_iff (a.members = b.members) (by cases a; cases b; simp)

namespace RSet

def empty : RSet := ⟨[], List.nodup_nil⟩

/-- `SADD`. -/
def sadd (s : RSet) (m : String) : RSet := ⟨s.members.insert m, s.nodup.insert⟩

/-- `SREM`. -/
def srem (s : RSet) (m : String) : RSet := ⟨s.members.erase m, s.nodup.erase m⟩

/-- `SCARD`. -/
def scard (s : RSet) : Nat := s.members.length

/-- `SPOP`: the member Redis picks (any of them; `pick` says which) and the set without it. -/
def spop (s : RSet) (pick : Nat) : Option (String × RSet) :=
  (s.members.get? (pick % s.members.length)).map fun m => (m, s.srem m)

@[simp] theorem mem_sadd (s : RSet) (m x : String) : x ∈ (s.sadd m).members ↔ x = m ∨ x ∈ s.members :=
  List.mem_insert_iff

@[simp] theorem mem_srem (s : RSet) (m x : String) : x ∈ (s.srem m).members ↔ x ≠ m ∧ x ∈ s.members :=
  s.nodup.mem_erase_iff

@[simp] theorem members_empty : empty.members = [] := rfl

theorem spop_some (s : RSet) (pick : Nat) (m : String) (t : RSet) (h : s.spop pick = some (m, t)) :
    m ∈ s.members ∧ t = s.srem m := by
  simp only [spop, Option.map_eq_some', Prod.mk.injEq] at h
  obtain ⟨x, hx, rfl, rfl⟩ := h
  exact ⟨List.get?_mem hx, rfl⟩

end RSet

/-- A string-keyed Redis key family: key and value, the last write first. -/
abbrev KMap (α : Type) := List (String × α)

namespace KMap

def get {α : Type} (m : KMap α) (k : String) : Option α := (m.find? (·.1 == k)).map (·.2)

def set {α : Type} (m : KMap α) (k : String) (v : α) : KMap α := (k, v) :: m.filter (·.1 != k)

def del {α : Type} (m : KMap α) (k : String) : KMap α := m.filter (·.1 != k)

@[simp] theorem get_set_self {α : Type} (m : KMap α) (k : String) (v : α) :
    (m.set k v).get k = some v := by simp [get, set]

theorem get_set_ne {α : Type} (m : KMap α) (k k' : String) (v : α) (h : k' ≠ k) :
    (m.set k v).get k' = m.get k' := by
  have hk : (k == k') = false := by simpa using Ne.symm h
  simp only [get, set, List.find?_cons, hk, List.find?_filter]
  congr 2
  funext a
  by_cases ha : a.1 = k' <;> simp [ha, h]

@[simp] theorem get_del_self {α : Type} (m : KMap α) (k : String) : (m.del k).get k = none := by
  simp [get, del, List.find?_filter]

theorem get_del_ne {α : Type} (m : KMap α) (k k' : String) (h : k' ≠ k) :
    (m.del k).get k' = m.get k' := by
  simp only [get, del, List.find?_filter]
  congr 2
  funext a
  by_cases ha : a.1 = k' <;> simp [ha, h]

end KMap

/-- The store keys `crawl.py` reads and writes. -/
structure Store where
  pending : RSet
  up : RSet
  mempoolPending : List String
  nodes : List String
  strs : KMap String
  counters : KMap Nat
  check : List (String × Int)
  deriving DecidableEq

/-- The two sets the crawler keeps under fixed names. -/
inductive SetKey
  | pending
  | up
  deriving DecidableEq, Repr

/-- The two lists the crawler keeps under fixed names. -/
inductive ListKey
  | mempoolPending
  | nodes
  deriving DecidableEq, Repr

/-- A write command, as a pipeline buffers it. `del k` deletes the key named `k`, of whatever
kind it is. -/
inductive Cmd
  | sadd (k : SetKey) (m : String)
  | set (k v : String)
  | lpush (k : ListKey) (v : String)
  | del (k : String)
  deriving DecidableEq, Repr

namespace Store

def empty : Store := ⟨RSet.empty, RSet.empty, [], [], [], [], []⟩

def setOf (st : Store) : SetKey → RSet
  | .pending => st.pending
  | .up => st.up

/-- `SADD`. -/
def sadd (st : Store) : SetKey → String → Store
  | .pending, m => { st with pending := st.pending.sadd m }
  | .up, m => { st with up := st.up.sadd m }

/-- `LPUSH`: the new element goes to the head. -/
def lpush (st : Store) : ListKey → String → Store
  | .mempoolPending, v => { st with mempoolPending := v :: st.mempoolPending }
  | .nodes, v => { st with nodes := v :: st.nodes }

/-- `DEL`. -/
def del (st : Store) (k : String) : Store :=
  if k = "pending" then { st with pending := RSet.empty }
  else if k = "up" then { st with up := RSet.empty }
  else if k = "mempool_pending" then { st with mempoolPending := [] }
  else if k = "nodes" then { st with nodes := [] }
  else if k = "check" then { st with check := [] }
  else { st with strs := st.strs.del k, counters := st.counters.del k }

/-- `SET` of a string key. -/
def set (st : Store) (k v : String) : Store := { st with strs := st.strs.set k v }

/-- `GET` of a string key. -/
def get (st : Store) (k : String) : Option String := st.strs.get k

/-- `EXISTS` of a string key or counter. -/
def «exists» (st : Store) (k : String) : Bool := (st.strs.get k).isSome || (st.counters.get k).isSome

/-- `INCR`: the counter's new value, and the store holding it. -/
def incr (st : Store) (k : String) : Nat × Store :=
  ((st.counters.get k).getD 0 + 1,
    { st with counters := st.counters.set k ((st.counters.get k).getD 0 + 1) })

/-- `LPOP`: the head of a list, and the store without it. -/
def lpop (st : Store) : ListKey → Option (String × Store)
  | .mempoolPending =>
    match st.mempoolPending with
    | [] => none
    | v :: rest => some (v, { st with mempoolPending := rest })
  | .nodes =>
    match st.nodes with
    | [] => none
    | v :: rest => some (v, { st with nodes := rest })

/-- `SPOP`. -/
def spop (st : Store) (k : SetKey) (pick : Nat) : Option (String × Store) :=
  ((st.setOf k).spop pick).map fun (m, s) =>
    (m, match k with
      | .pending => { st with pending := s }
      | .up => { st with up := s })

/-- The keys whose name starts with `pfx`: `utils.get_keys(redis_conn, pfx + '*')`. -/
def keys (st : Store) (pfx : String) : List String :=
  (st.strs.map (·.1) ++ st.counters.map (·.1)).filter fun k => pfx.data.isPrefixOf k.data

/-- `ZRANGEBYSCORE check lo hi`. -/
def zrangebyscore (st : Store) (lo hi : Int) : List String :=
  (st.check.filter fun e => lo ≤ e.2 ∧ e.2 ≤ hi).map (·.1)

/-- One buffered command. -/
def exec (st : Store) : Cmd → Store
  | .sadd k m => st.sadd k m
  | .set k v => st.set k v
  | .lpush k v => st.lpush k v
  | .del k => st.del k

/-- A pipeline's `execute()`: its commands in order. -/
def execAll (st : Store) (cmds : List Cmd) : Store := cmds.foldl exec st

@[simp] theorem execAll_nil (st : Store) : st.execAll [] = st := rfl

@[simp] theorem execAll_cons (st : Store) (c : Cmd) (cmds : List Cmd) :
    st.execAll (c :: cmds) = (st.exec c).execAll cmds := rfl

theorem execAll_append (st : Store) (l l' : List Cmd) :
    st.execAll (l ++ l') = (st.execAll l).execAll l' := List.foldl_append _ _ _ _

end Store

end BitCrawler
