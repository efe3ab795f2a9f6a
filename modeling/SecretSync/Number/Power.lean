/-!
The powers that number formats are made of.
-/

namespace SecretSync

def twoPow (n : Nat) : Nat := Nat.pow 2 n

def tenPow (n : Nat) : Nat := Nat.pow 10 n

end SecretSync
