import SeriesQuery.Compile.Options
import SeriesQuery.Digest.Sha256
import SeriesQuery.Query.Written

/-!
# Cache keys

A compilation is known by the hash of the compact JSON of its query and placeholders, behind a byte
for the version of the statements.
-/

namespace SeriesQuery.Cache

open Query (Descriptor)
open Compile (Options)

/-- To be raised when the statement of an unchanged query changes. -/
def keyVersion : UInt8 := 1

def hashedBytes (value : Json.Value) : List UInt8 := keyVersion :: value.text.toUTF8.toList

/-- The hash of a JSON value, as 64 hexadecimal digits. -/
def hash (value : Json.Value) : String := (Digest.Sha256.hash (hashedBytes value)).hex

def keyValue (d : Descriptor) (o : Options) : Json.Value := .array [d.toJson, o.toJson]

def key (d : Descriptor) (o : Options) : String := hash (keyValue d o)

end SeriesQuery.Cache
