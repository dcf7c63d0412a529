import TileTracer.Text.Json.Token

namespace TileTracer

/-- A JSON value. A text is `none` if its escapes name half of a surrogate pair. -/
inductive JsonValue where
  | null
  | bool (value : Bool)
  | number (value : NumberLiteral)
  | text (value : Option String)
  | array (items : List JsonValue)
  | object (entries : List (Option String × JsonValue))
  deriving Repr

namespace JsonValue

/-- An array or object that is still open, with what it holds so far, the last first. An object
knows the key of the value to come. -/
inductive Frame where
  | array (items : List JsonValue)
  | object (entries : List (Option String × JsonValue)) (key : Option String)

/-- What may come next, inside the open frames from the innermost outwards. -/
inductive State where
  | value (frames : List Frame)
  /-- The first item of an array, or its end. -/
  | items (frames : List Frame)
  /-- The first key of an object, or its end. -/
  | entries (frames : List Frame)
  /-- Another key of an object with these entries. -/
  | key (frames : List Frame) (entries : List (Option String × JsonValue))
  /-- The colon behind a key. -/
  | colon (frames : List Frame) (entries : List (Option String × JsonValue)) (key : Option String)
  /-- What follows a value: a comma or the end of the innermost frame. -/
  | after (frames : List Frame) (v : JsonValue)

namespace State

def start? (frames : List Frame) : JsonToken → Option State
  | .null => some (.after frames .null)
  | .bool b => some (.after frames (.bool b))
  | .number n => some (.after frames (.number n))
  | .text s => some (.after frames (.text s))
  | .openArray => some (.items frames)
  | .openObject => some (.entries frames)
  | _ => none

def next? : State → JsonToken → Option State
  | value frames, t => start? frames t
  | items frames, .closeArray => some (.after frames (.array []))
  | items frames, t => start? (.array [] :: frames) t
  | entries frames, .closeObject => some (.after frames (.object []))
  | entries frames, .text k => some (.colon frames [] k)
  | key frames done, .text k => some (.colon frames done k)
  | colon frames done k, .colon => some (.value (.object done k :: frames))
  | after (.array done :: frames) v, .comma => some (.value (.array (v :: done) :: frames))
  | after (.array done :: frames) v, .closeArray =>
    some (.after frames (.array (v :: done).reverse))
  | after (.object done k :: frames) v, .comma => some (.key frames ((k, v) :: done))
  | after (.object done k :: frames) v, .closeObject =>
    some (.after frames (.object ((k, v) :: done).reverse))
  | _, _ => none

/-- The value that is complete when no frame is open. -/
def value? : State → Option JsonValue
  | after [] v => some v
  | _ => none

end State

def ofTokens? (tokens : List JsonToken) : Option JsonValue := do
  (← tokens.foldlM State.next? (.value [])).value?

/-- The value that a text writes, blanks around it allowed. -/
def parse? (s : String) : Option JsonValue := do
  ofTokens? (← JsonToken.ofChars? s.toList)

/-- A natural number below 2 ^ 32, written without a sign. -/
def word? : JsonValue → Option UInt32
  | number n => n.word?
  | _ => none

def float? (reading : NumberReading) : JsonValue → Option Float32
  | number n => n.float? reading
  | _ => none

def bool? : JsonValue → Option Bool
  | bool b => some b
  | _ => none

def text? : JsonValue → Option String
  | text s => s
  | _ => none

def texts? : JsonValue → Option (List String)
  | array items => items.mapM text?
  | _ => none

end JsonValue

end TileTracer
