import DOpenWrt.Rtp2httpd.RewriteM3uLine

/-!
# The attributes of a comment line (`rewrite_uri_attributes`)

In a comment only the values of `URI=` attributes change, each at most once, and the search for them ends. It goes on behind
the value it has found, so that an attribute may also stand right behind a closing quote.
-/

namespace Rtp2httpd
open CString

/-- The text ends in `URI=`, in any case, at its start or behind one of the bytes that stand before an attribute. -/
def EndsInUri (text : List UInt8) : Prop :=
  ∃ before key, text = before ++ key ∧ eqIgnoreCase key (str "URI=") = true ∧
    ∀ c ∈ before.getLast?, isAttributeBoundary c = true

/-- The bytes that end a value without quotes. -/
def valueEnds : List UInt8 := str ", \t\r\n"

/-- A value between its quotes, if it has any, and the text behind them. -/
def IsValue (quotes value rest : List UInt8) : Prop :=
  quotes = str "\"" ∧ byte '"' ∉ value ∨
    quotes = [] ∧ value ≠ [] ∧ value.head? ≠ some (byte '"') ∧ (∀ c ∈ value, c ∉ valueEnds) ∧ ∀ c ∈ rest.head?, c ∈ valueEnds

/-- What a value becomes, and whether it is one of those that are rewritten. -/
def NewValue (ctx : RewriteContext) (urls : List (List UInt8)) (value value' : List UInt8) : Prop :=
  urls = [] ∧ value' = value ∨
    urls = [value] ∧ value ≠ [] ∧ rewriteUrlToProxyFormat ctx value (httpProxyPathSize * 2) = some value'

/-- Nothing but values of attributes differs, those of `urls`, and a new value is not looked at again. -/
inductive AttributesRewritten (ctx : RewriteContext) : List (List UInt8) → List UInt8 → List UInt8 → Prop
  | kept (text : List UInt8) : AttributesRewritten ctx [] text text
  | value {urls urls' : List (List UInt8)} {pre quotes value value' rest rest' : List UInt8} (hkey : EndsInUri pre)
      (hvalue : IsValue quotes value rest) (hnew : NewValue ctx urls value value')
      (hrest : AttributesRewritten ctx urls' rest rest') :
      AttributesRewritten ctx (urls ++ urls') (pre ++ quotes ++ value ++ quotes ++ rest)
        (pre ++ quotes ++ value' ++ quotes ++ rest')

/-! ### The search -/

section
variable {line : List UInt8} {attr : UriAttribute} {valueStart uriPos fuel : Nat}

/-- The quotes of an attribute. -/
def UriAttribute.quotes (attr : UriAttribute) : List UInt8 := if attr.hasQuotes then str "\"" else []

/-- The values of a comment that are rewritten if there is memory for it: those with a proxy form. -/
def rewrittenValues (ctx : RewriteContext) : Nat → List UInt8 → List (List UInt8)
  | 0, _ => []
  | fuel + 1, text =>
    match findUriAttribute text with
    | .ok (some attr) =>
      let value := (text.drop attr.offset).take attr.length
      let proxied := if shouldRewriteUrl value then rewriteUrlToProxyFormat ctx value (httpProxyPathSize * 2) else none
      (if proxied.isSome then [value] else []) ++
        rewrittenValues ctx fuel (text.drop (attr.offset + attr.length + attr.quotes.length))
    | _ => []

end

/-! ### The loop -/

section
variable {allocates : Nat → Bool} {ctx : RewriteContext} {done text : List UInt8} {fuel : Nat} {modified : Bool}

section
variable {pre quotes value rest : List UInt8}

/-! Where the parts of a line stand. -/

theorem drop_suffix : (done ++ (pre ++ quotes ++ value ++ quotes ++ rest)).drop
    (done.length + (pre.length + quotes.length) + value.length + quotes.length) = rest := by
  rw [← List.append_assoc, List.drop_left' (by simp only [List.length_append]; omega)]

end

end

end Rtp2httpd
