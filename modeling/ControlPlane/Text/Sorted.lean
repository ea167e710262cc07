-- Texts in ascending order. Repetitions stay.
namespace ControlPlane

def insertSorted (text : String) : List String → List String
  | [] => [text]
  | t :: rest => if t < text then t :: insertSorted text rest else text :: t :: rest

def sortTexts (texts : List String) : List String := texts.foldr insertSorted []

end ControlPlane
