import BitCrawler.Peers

/-! # Store keys and queue entries

A node is named four ways in the store: by its key `node:<address>-<port>-<services>` (in `up`
and as its claim), by `height:` and `version:` keys, by the tuple text `str((address, port,
services))` in `pending`, and by the list text `str(key[5:].split('-', 2))` in
`mempool_pending`. This module has each encoding and each decoding as the code writes it, so
that the places that build a name and the places that take it apart can be compared.
-/

namespace BitCrawler
set_option autoImplicit false
open Python

/-- The f-string field `{x}` of a scalar. -/
def Python.Atom.fmt : Atom → String
  | .str s => s
  | .int n => toString n

/-- `f'node:{address}-{port}-{services}'`. -/
def nodeKey (a p s : String) : String := "node:" ++ a ++ "-" ++ p ++ "-" ++ s

/-- `f'height:{address}-{port}-{services}'`. -/
def heightKey (a p s : String) : String := "height:" ++ a ++ "-" ++ p ++ "-" ++ s

/-- `f'version:{address}-{port}'`. -/
def versionKey (a p : String) : String := "version:" ++ a ++ "-" ++ p

/-- `f'peer:{conn.to_addr[0]}-{conn.to_addr[1]}'`; the port is `int(port)`. -/
def peerKey (a : String) (port : Int) : String := "peer:" ++ a ++ "-" ++ toString port

/-- `f'crawl:cidr:{cidr}'`. -/
def cidrKey (cidr : String) : String := "crawl:cidr:" ++ cidr

/-- `str((address, port, services))`: an entry of `pending`. -/
def tripleStr (lib : Lib) (t : Triple) : String :=
  (Value.item (.tuple [t.1, t.2.1, t.2.2])).str lib.printable

/-- `str(key_tuple)` for a list of strings: an entry of `mempool_pending`. -/
def partsStr (lib : Lib) (parts : List String) : String :=
  (Value.list (parts.map fun p => .atom (.str p))).str lib.printable

/-- `key[5:].split('-', 2)`, as `connect`, `ask_mempool`, `restart` and `dump` take a node key
apart. -/
def keyParts (key : String) : List String := split (drop 5 key) '-' 2

/-- `node = eval(node)` in `task`, read as `node[0]`, `node[1]`, `node[2]`; `none` where Python
raises (`node[0]` must be a string, for `':' in node[0]`). -/
def entryNode (v : Value) : Option (String × Atom × Atom) :=
  match v with
  | .item (.tuple (.str a :: p :: s :: _)) => some (a, p, s)
  | .list (.atom (.str a) :: .atom p :: .atom s :: _) => some (a, p, s)
  | _ => none

/-- The key `task` builds for a node: `f'node:{node[0]}-{node[1]}-{node[2]}'`. -/
def taskKey (a : String) (p s : Atom) : String := nodeKey a p.fmt s.fmt

/-- The top of `connect` and `ask_mempool`: `(address, port, services) = key[5:].split('-', 2)`,
then `int(services)`, and `int(port)` for the connection. -/
structure Session where
  address : String
  port : String
  services : String
  servicesNum : Int
  portNum : Int
  deriving DecidableEq, Repr

/-- `none` where the unpacking or one of the two `int` calls raises. -/
def sessionParse (key : String) : Option Session :=
  match keyParts key with
  | [a, p, s] => (toInt s).bind fun sv => (toInt p).map fun pv => ⟨a, p, s, sv, pv⟩
  | _ => none

/-- The key `connect` publishes after the handshake: rewritten to the advertised services when
they differ from the key's. -/
def upKey (key a p : String) (services : Int) (fromServices : Nat) : String :=
  if (fromServices : Int) ≠ services then nodeKey a p (toString fromServices) else key

/-- `dump`'s reading of a member of `up`: address, `int(port)`, `int(services)`, and the height
key it reads. -/
def dumpParse (node : String) : Option (String × Int × Int × String) :=
  match keyParts node with
  | [a, p, s] => (toInt p).bind fun pv => (toInt s).map fun sv => (a, pv, sv, heightKey a p s)
  | _ => none

/-- `str((address, int(port), int(services)))`: the entry `restart` re-adds to `pending` for a
member of `up`. -/
def reseed (lib : Lib) (node : String) : Option String :=
  match keyParts node with
  | [a, p, s] => (toInt p).bind fun pv => (toInt s).map fun sv => tripleStr lib (.str a, .int pv, .int sv)
  | _ => none

theorem keyParts_nodeKey (a p s : String) (ha : '-' ∉ a.data) (hp : '-' ∉ p.data) :
    keyParts (nodeKey a p s) = [a, p, s] := by
  have h : nodeKey a p s = "node:" ++ (a ++ "-" ++ p ++ "-" ++ s) := by
    simp only [nodeKey, String.append_assoc]
  rw [keyParts, h, show (5 : Nat) = "node:".length from rfl, drop_append "node:" _,
    split_parts a p s ha hp]

end BitCrawler
