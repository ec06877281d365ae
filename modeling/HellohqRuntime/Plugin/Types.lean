import HellohqRuntime.Foundation.Strings

/-!
# The `hellohq:plugin` value types

The records of the plugin interfaces that the capability hosts exchange with a guest.
-/

namespace HellohqRuntime.Plugin.Types

open HellohqRuntime.Foundation.Strings

structure ApiError where
  code : Text
  message : Text
  deriving DecidableEq, Repr

structure PluginEvent where
  kind : Text
  payload : Bytes
  deriving DecidableEq, Repr

structure PortfolioName where
  id : Text
  name : Text
  deriving DecidableEq, Repr

structure CurrencyRate where
  id : Text
  name : Text
  symbol : Text
  rate : Float
  deriving DecidableEq, Repr

structure SheetInfo where
  name : Text
  sections : List Text
  deriving DecidableEq, Repr

structure SheetSummary where
  portfolioId : Text
  sheets : List SheetInfo
  deriving DecidableEq, Repr

structure CategoryCount where
  category : Text
  count : UInt32
  deriving DecidableEq, Repr

structure AssetCount where
  portfolioId : Text
  countByCategory : List CategoryCount
  deriving DecidableEq, Repr

structure CategoryTotal where
  category : Text
  total : Float
  deriving DecidableEq, Repr

structure AggregatedSummary where
  portfolioId : Text
  totals : List CategoryTotal
  deriving DecidableEq, Repr

end HellohqRuntime.Plugin.Types
