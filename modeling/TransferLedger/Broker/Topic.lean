import TransferLedger.Text.Split

/-!
Topics: routing keys and patterns are words separated by points. In a pattern the word `*` stands
for exactly one word and the word `#` for any number of words.
-/
namespace TransferLedger.Topic
set_option autoImplicit false

/-- One word of a key or pattern. -/
abbrev Word := List Char

def words (s : String) : List Word := Text.split '.' s.toList

/-- A list and everything that is left of it after dropping words in front. -/
def tails : List Word → List (List Word)
  | [] => [[]]
  | w :: ws => (w :: ws) :: tails ws

/-- The words of a key match the words of a pattern. -/
def matchesWords : List Word → List Word → Bool
  | [], key => key.isEmpty
  | p :: ps, key =>
    if p = ['#'] then (tails key).any (matchesWords ps)
    else match key with
      | [] => false
      | k :: ks => (p == ['*'] || p == k) && matchesWords ps ks

/-- A routing key matches a pattern. -/
def matchesKey (pattern key : String) : Bool := matchesWords (words pattern) (words key)

end TransferLedger.Topic
