namespace CryptoIntrinsics

/-- The variables that are set, with their values; of two entries for one name the first counts. -/
structure Environment where
  entries : List (String × String)
deriving DecidableEq, Repr

namespace Environment

def empty : Environment := ⟨[]⟩

def get? (env : Environment) (name : String) : Option String := env.entries.lookup name

def set (env : Environment) (name : String) : Option String → Environment
  | some value => ⟨(name, value) :: env.entries.filter (·.1 != name)⟩
  | none => ⟨env.entries.filter (·.1 != name)⟩

/-- Whether a variable can be set to a value: neither holds a NUL, and the name no equals sign.
    Whatever its name, a variable can be unset. -/
def canSet (name : String) : Option String → Bool
  | some value =>
    !name.toList.contains '=' && !name.toList.contains '\x00' && !value.toList.contains '\x00'
  | none => true

theorem lookup_filter_of_ne {name other : String} (hne : other ≠ name)
    (entries : List (String × String)) :
    (entries.filter (·.1 != name)).lookup other = entries.lookup other := by
  induction entries with
  | nil => rfl
  | cons entry rest ih =>
    obtain ⟨key, text⟩ := entry
    by_cases hkey : key = name
    · subst hkey
      have hother : (other == key) = false := by simpa using hne
      rw [List.filter_cons_of_neg (by simp), ih, List.lookup_cons, hother]
    · rw [List.filter_cons_of_pos (by simpa using hkey), List.lookup_cons, List.lookup_cons, ih]

theorem get?_set_of_ne {env : Environment} {name other : String} {value : Option String}
    (hne : other ≠ name) : (env.set name value).get? other = env.get? other := by
  have hfilter := lookup_filter_of_ne hne env.entries
  cases value with
  | none => exact hfilter
  | some text =>
    have hother : (other == name) = false := by simpa using hne
    simpa [set, get?, List.lookup_cons, hother] using hfilter

end Environment

end CryptoIntrinsics
