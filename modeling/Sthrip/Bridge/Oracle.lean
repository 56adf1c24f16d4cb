import Mathlib.Data.String.Basic
import Sthrip.Python.Numbers

set_option autoImplicit false

/-! # The price oracle of the bridge -/

namespace Sthrip

open Python

namespace Oracle

structure PriceData where
  source : String
  price : Number
  timestamp : ℚ
  confidence : Number

/-- What `get_price` raises. -/
inductive Raised
  | InsufficientSources (prices : ℕ) (min_sources : ℤ) (errors : List String)
  | TooManyOutliers (valid_prices : ℕ) (min_sources : ℤ)
  | Arithmetic (e : NumberError)

def ofNumber {α : Type} : Except NumberError α → Except Raised α
  | .ok a => .ok a
  | .error e => .error (.Arithmetic e)

/-- An oracle of the aggregator, with what it returns in time or raises. -/
structure Answer where
  name : String
  timestamp : ℚ
  result : Except String ℚ

/-- `_fetch_with_timeout` -/
def Answer.fetch (answer : Answer) : Except String PriceData := do
  let price ← answer.result
  pure {
    source := answer.name
    price := Number.decimal price
    timestamp := answer.timestamp
    confidence := Number.float (9 / 10) }

def fetched (answers : List Answer) : List PriceData :=
  answers.filterMap fun answer => answer.fetch.toOption

def errors (answers : List Answer) : List String :=
  answers.filterMap fun answer =>
    match answer.fetch with
    | .error e => some s!"{answer.name}: {e}"
    | .ok _ => none

/-- `statistics.median` -/
def medianOf (data : List Number) : Except NumberError Number :=
  let data := data.mergeSort fun a b => a.value ≤ b.value
  let n := data.length
  if n % 2 = 1 then .ok (data.getD (n / 2) (Number.ofInt 0))
  else do
    let total ← (data.getD (n / 2 - 1) (Number.ofInt 0)).add (data.getD (n / 2) (Number.ofInt 0))
    total.div (Number.ofInt 2)

structure OracleAggregator where
  max_deviation : ℚ
  min_sources : ℤ

/-- The pass of `_filter_outliers`. -/
def filterPass (max_deviation : ℚ) (median : Number) :
    List PriceData → Except NumberError (List PriceData)
  | [] => .ok []
  | price_data :: prices => do
      let difference ← price_data.price.sub median
      let deviation ← difference.abs.div median
      let valid ← filterPass max_deviation median prices
      pure (if deviation.value ≤ max_deviation then price_data :: valid else valid)

def OracleAggregator.filterOutliers (S : OracleAggregator) (prices : List PriceData) :
    Except NumberError (List PriceData) :=
  if prices.length ≤ 2 then .ok prices
  else do
    let price_values := prices.map PriceData.price
    let median ← medianOf price_values
    filterPass S.max_deviation median prices

/-- The prices, each times its confidence, summed up. -/
def sumWeighted (prices : List PriceData) : Except NumberError Number :=
  prices.foldlM
    (fun total p => do
      let product ← p.price.mul p.confidence
      total.add product)
    (Number.ofInt 0)

def weightedMean (prices : List PriceData) : Except NumberError PriceData := do
  let total_weight ← Number.sum (prices.map PriceData.confidence)
  let total ← sumWeighted prices
  let weighted_price ← total.div total_weight
  let weights ← Number.sum (prices.map PriceData.confidence)
  let avg_confidence ← weights.div (Number.ofInt prices.length)
  let latest_timestamp := (prices.map PriceData.timestamp).foldl max
    ((prices.map PriceData.timestamp).headD 0)
  pure {
    source := s!"aggregated:{prices.length}"
    price := weighted_price
    timestamp := latest_timestamp
    confidence := avg_confidence }

def aggregatePrices : List PriceData → Except NumberError PriceData
  | [price_data] => .ok price_data
  | prices => weightedMean prices

def OracleAggregator.getPrice (S : OracleAggregator) (answers : List Answer) :
    Except Raised PriceData := do
  let prices := fetched answers
  if (prices.length : ℤ) < S.min_sources then
    .error (.InsufficientSources prices.length S.min_sources (errors answers))
  else
    let valid_prices ← ofNumber (S.filterOutliers prices)
    if (valid_prices.length : ℤ) < S.min_sources then
      .error (.TooManyOutliers valid_prices.length S.min_sources)
    else ofNumber (aggregatePrices valid_prices)

end Oracle

end Sthrip
