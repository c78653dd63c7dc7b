import BitCrawler.System.Run

/-! # One endpoint, four names

`task` names a node `node:<a>-<p>-<s>` from the tuple `eval` gave; `connect` takes that key
apart with `key[5:].split('-', 2)` and publishes the key of the rewritten endpoint; `dump`
takes the published key apart to find its `height:` key; `restart` turns it back into the
tuple text `str((a, int(p), int(s)))` of `pending`. For an address without `-` and
non-negative port and services, these agree: each decoding returns what the encoding was given.
-/

namespace BitCrawler
set_option autoImplicit false
open Python

theorem toString_natCast (n : Nat) : toString (n : Int) = toString n := rfl

theorem keyParts_taskKey (a : String) (p s : Nat) (ha : '-' ∉ a.data) :
    keyParts (taskKey a (.int p) (.int s)) = [a, toString p, toString s] :=
  keyParts_nodeKey a _ _ ha (dash_not_mem_toString p)

theorem sessionParse_taskKey (a : String) (p s : Nat) (ha : '-' ∉ a.data) :
    sessionParse (taskKey a (.int p) (.int s)) = some ⟨a, toString p, toString s, s, p⟩ := by
  simp [sessionParse, keyParts_taskKey a p s ha, toInt_toString]

/-- `connect`'s published key is the node key of the endpoint with the advertised services,
whether or not it rewrote the key. -/
theorem key_of_taskKey (a : String) (p s : Nat) (h : Hello) :
    (ConnectPipe.mk (a, .int p, .int s) ⟨a, toString p, toString s, s, p⟩ h).key =
      nodeKey a (toString p) (toString h.services) := by
  simp only [ConnectPipe.key, ConnectPipe.claimKey, upKey, taskKey, Atom.fmt, toString_natCast]
  split_ifs with hs
  · rfl
  · rw [Int.natCast_inj.mp (not_not.mp hs)]

theorem dumpParse_nodeKey (a : String) (p s : Nat) (ha : '-' ∉ a.data) :
    dumpParse (nodeKey a (toString p) (toString s)) =
      some (a, (p : Int), (s : Int), heightKey a (toString p) (toString s)) := by
  simp [dumpParse, keyParts_nodeKey a _ _ ha (dash_not_mem_toString p), toInt_toString]

theorem reseed_nodeKey (lib : Lib) (a : String) (p s : Nat) (ha : '-' ∉ a.data) :
    reseed lib (nodeKey a (toString p) (toString s)) = some (tripleStr lib (.str a, .int p, .int s)) := by
  simp [reseed, keyParts_nodeKey a _ _ ha (dash_not_mem_toString p), toInt_toString]

theorem endpoint_names_agree (lib : Lib) (a : String) (p s : Nat) (h : Hello) (ts : Int)
    (ha : '-' ∉ a.data) :
    keyParts (taskKey a (.int p) (.int s)) = [a, toString p, toString s] ∧
      ∃ ses, sessionParse (taskKey a (.int p) (.int s)) = some ses ∧
        dumpParse (ConnectPipe.mk (a, .int p, .int s) ses h).key =
          some (a, (p : Int), (h.services : Int), (ConnectPipe.mk (a, .int p, .int s) ses h).heightKey) ∧
        reseed lib (ConnectPipe.mk (a, .int p, .int s) ses h).key =
          some (tripleStr lib (peerTriple (a, p, h.services, ts))) := by
  refine ⟨keyParts_taskKey a p s ha, _, sessionParse_taskKey a p s ha, ?_, ?_⟩
  · rw [key_of_taskKey, dumpParse_nodeKey a p _ ha]
    rfl
  · rw [key_of_taskKey, reseed_nodeKey lib a p _ ha]
    rfl

theorem seed_names_agree :
    '-' ∉ "1.1.1.1".data ∧
      (keyParts (taskKey "1.1.1.1" (.int 8333) (.int 1)) = ["1.1.1.1", "8333", "1"] ∧
        ∃ ses, sessionParse (taskKey "1.1.1.1" (.int 8333) (.int 1)) = some ses ∧
          dumpParse (ConnectPipe.mk ("1.1.1.1", .int 8333, .int 1) ses ⟨70015, "", 9, 800000⟩).key =
            some ("1.1.1.1", 8333, 9,
              (ConnectPipe.mk ("1.1.1.1", .int 8333, .int 1) ses ⟨70015, "", 9, 800000⟩).heightKey) ∧
          reseed demoLib (ConnectPipe.mk ("1.1.1.1", .int 8333, .int 1) ses ⟨70015, "", 9, 800000⟩).key =
            some (tripleStr demoLib (peerTriple ("1.1.1.1", 8333, 9, 0)))) :=
  ⟨by decide, endpoint_names_agree demoLib "1.1.1.1" 8333 1 ⟨70015, "", 9, 800000⟩ 0 (by decide)⟩

end BitCrawler
