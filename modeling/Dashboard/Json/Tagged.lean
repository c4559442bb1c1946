import Dashboard.Json.Decode
/-!
# Records with a tag

A value of several kinds is an object in which one member names the kind; the other members are the
fields of that kind. It may also be a list of the name and the fields in order.
-/

namespace Dashboard.Json.Decoder

open Number

variable {α : Type}

def surplusItems (count n : Nat) : DecodeError :=
  .wrongLength n (natText count ++ (if count = 1 then " element" else " elements") ++ " in sequence")

/-- Decodes a tagged record. A kind has a name, a title for messages and its fields. -/
def tagged (tag title : String) (kinds : List (String × String × Record α)) : Decoder α
  | o, .list items ending => do
    let inner ← o.enter
    match items with
    | [] => atEnd ending.reading?; .error (.missing tag)
    | s :: rest => do
      let (kindTitle, record) ← variantName kinds inner s
      let values ← Source.toItems inner rest
      atEnd ending.reading?
      record.ofItems kindTitle .value (Source.ofItems values) .closed
        (fun n => surplusItems record.fields.length n)
  | o, s => do
    let ((_, record), rest) ← (Record.required tag (variantName kinds)).openEnded title o s
    record.ofRest rest

end Dashboard.Json.Decoder
