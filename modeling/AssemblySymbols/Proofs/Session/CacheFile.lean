import AssemblySymbols.Proofs.Text.Encoding
import AssemblySymbols.Session.Scan

/-! The way of a snapshot through the cache file, from the characters that are written to the index
that a session starts with. -/
namespace AssemblySymbols

def Snapshot.written (snapshot : Snapshot) : List Char := Json.Layout.compact.write 0 snapshot.toJson

theorem Cache.decode?_encode (snapshot : Snapshot) :
    decode? (encode snapshot) = Snapshot.read? (snapshot.written.map some) := by
  rw [decode?, encode, Text.decode_encode, Snapshot.text, Json.compact, String.toList_ofList]
  rfl

theorem Cache.load_eq {disk : Disk} {path : Path} {snapshot : Snapshot}
    (found : disk.read path = .ok (encode snapshot))
    (legible : Snapshot.read? (snapshot.written.map some) = some snapshot) :
    load disk path = .ok snapshot := by
  rw [load, found]
  dsimp only
  rw [decode?_encode, legible]

theorem Session.index_warmStart {session : Session} {snapshot : Snapshot}
    (loaded : session.store.load = .ok snapshot) :
    session.warmStart.index = (session.index.restore snapshot).1 := by
  rw [warmStart, loaded]
  rfl

namespace Disk

/-- A disk with nothing on it but the cache of a workspace at its root. -/
def ofCache (snapshot : Snapshot) : Disk where
  nodes := [([".asmdex"], .directory), ([".asmdex", "cache"], .directory),
    ([".asmdex", "cache", "symbols.json"], .file (Cache.encode snapshot))]
  home := []

theorem read_ofCache (snapshot : Snapshot) :
    (ofCache snapshot).read ⟨"/.asmdex/cache/symbols.json"⟩ = .ok (Cache.encode snapshot) := by
  have pieces : Path.splitSlashes "/.asmdex/cache/symbols.json".toList =
      [[], ".asmdex".toList, "cache".toList, "symbols.json".toList] := by decide +kernel
  have walked : (ofCache snapshot).walk true linkLimit []
      [[], ".asmdex".toList, "cache".toList, "symbols.json".toList] =
      .ok (.present [".asmdex", "cache", "symbols.json"] (.file (Cache.encode snapshot))) := rfl
  have resolved : (ofCache snapshot).resolve true ⟨"/.asmdex/cache/symbols.json"⟩ =
      .ok (.present [".asmdex", "cache", "symbols.json"] (.file (Cache.encode snapshot))) := by
    rw [resolve, if_neg (by decide +kernel), if_neg (by decide +kernel), if_neg (by decide +kernel),
      pieces]
    exact walked
  rw [read, find?, resolved]
  rfl

end Disk
end AssemblySymbols
