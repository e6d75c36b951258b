/-!
# Dictionaries

A dictionary is a list of entries whose keys increase strictly, in the order of code points, which is also
the order of the UTF-8 bytes. `insert` keeps that order and lets the last value of a key win.
-/

namespace EventCourier

/-- Entries by key, in increasing order of the keys. -/
abbrev Dictionary (α : Type) := List (String × α)

namespace Dictionary

variable {α : Type}

/-- The value under a key. -/
def get? (key : String) : Dictionary α → Option α
  | [] => none
  | (k, v) :: rest => if k = key then some v else get? key rest

/-- Puts a value under a key, over one that was there. -/
def insert (key : String) (value : α) : Dictionary α → Dictionary α
  | [] => [(key, value)]
  | (k, v) :: rest =>
    if key < k then (key, value) :: (k, v) :: rest
    else if key = k then (key, value) :: rest
    else (k, v) :: insert key value rest

/-- The dictionary that a list of entries makes, a later entry over an earlier one. -/
def ofList (entries : List (String × α)) : Dictionary α :=
  entries.foldl (fun d e => insert e.1 e.2 d) []

/-- The keys, increasing. -/
def keys (d : Dictionary α) : List String := d.map (·.1)

/-- The distinct members of a list of texts, increasing. -/
def distinct (names : List String) : List String := keys (ofList (names.map fun n => (n, ())))

end Dictionary
end EventCourier
