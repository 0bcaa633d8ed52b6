/-! Text as bytes. Decoding accepts exactly the well formed sequences. -/
namespace HandlerGraph.Text

def encode (s : String) : List UInt8 := s.toUTF8.data.toList

def decode? (bytes : List UInt8) : Option String := String.fromUTF8? ⟨bytes.toArray⟩

@[simp] theorem decode?_encode (s : String) : decode? (encode s) = some s := by
  have valid : (⟨s.toUTF8.data.toList.toArray⟩ : ByteArray).IsValidUTF8 := s.isValidUTF8
  exact dif_pos valid

end HandlerGraph.Text
