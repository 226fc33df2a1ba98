import ConversionCoverage.Text

/-!
# Buckets

Items gathered separately for each text, such as the attempts for each language in a tally. A
bucket is made when its text first comes up, and the buckets are put in order once all items have
been gathered.
-/

namespace ConversionCoverage

/-- What has been gathered under each text, in the order in which the texts came up. -/
abbrev Buckets (α : Type) := List (Text × α)

namespace Buckets

variable {α β : Type}

/-- Changes what is under a text. A new bucket holds `start` before it is changed. -/
def change (start : α) (f : α → α) (key : Text) : Buckets α → Buckets α
  | [] => [(key, f start)]
  | (k, v) :: rest => if k = key then (k, f v) :: rest else (k, v) :: change start f key rest

def add (key : β → Text) (start : α) (step : α → β → α) (buckets : Buckets α) (x : β) :
    Buckets α :=
  buckets.change start (fun v => step v x) (key x)

def collect (key : β → Text) (start : α) (step : α → β → α) (items : List β) : Buckets α :=
  items.foldl (add key start step) []

/-- The buckets in increasing order of their texts. -/
def sorted (buckets : Buckets α) : Buckets α := buckets.mergeSort fun a b => Text.le a.1 b.1

end Buckets

end ConversionCoverage
