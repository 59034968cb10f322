namespace NodeFlow.Text

def Precedes (a b : String) : Prop := String.instLT.lt a b

instance (a b : String) : Decidable (Precedes a b) := String.decidableLT a b

variable {a b c : String}

theorem precedes_irrefl (a : String) : ¬ Precedes a a := String.lt_irrefl a

theorem Precedes.trans (first : Precedes a b) (second : Precedes b c) : Precedes a c :=
  String.lt_trans first second

theorem precedes_of_not (different : a ≠ b) (refused : ¬ Precedes a b) : Precedes b a :=
  String.not_le.1 fun le => different (String.le_antisymm (String.not_lt.1 refused) le).symm

end NodeFlow.Text
