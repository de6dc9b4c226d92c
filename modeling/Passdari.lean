import Passdari.Lib.Checks
import Passdari.Lib.Codec
import Passdari.Lib.Runs
import Passdari.Lib.Store
import Passdari.Lib.Token2022
import Passdari.Address
import Passdari.State
import Passdari.Error
import Passdari.BusinessRules
import Passdari.Ledger
import Passdari.Instructions.Shop
import Passdari.Instructions.Stamps
import Passdari.Instructions.CardNfts
import Passdari.Instructions.Vouchers
import Passdari.Instructions.Migrations
import Passdari.Machine
import Passdari.Lib.TokenFacts
import Passdari.Lib.TokenHolders
import Passdari.Effect.Handlers
import Passdari.Effect.Delta
import Passdari.Effect.Views
import Passdari.Effect.Rules
import Passdari.Effect.Refines
import Passdari.Effect.Induction
import Passdari.Effect.Accounts
import Passdari.Effect.Calls
import Passdari.Effect.TokenCalls
import Passdari.Books.Counters
import Passdari.Books.Issued
import Passdari.Books.Cards
import Passdari.Books.Settings
import Passdari.Books.Stamps
import Passdari.Books.Migration
import Passdari.Books.RentLedger
import Passdari.Books.VoucherTokens
import Passdari.Books.Payments
import Passdari.Books.CardTokens
import Passdari.Books.Offers
import Passdari.Books.Receipts
import Passdari.Books.Rent
import Passdari.Books.CleanUp
import Passdari.Books.Drain
import Passdari.Books.Redemption
import Passdari.Lib.Transfers
import Passdari.Effect.Failures
import Passdari.Books.CardLedger
import Passdari.Effect.Refusals
import Passdari.Books.EarnedRewards
import Passdari.Books.OldShops
import Passdari.Books.OneToken
import Passdari.Books.Refunds
import Passdari.Books.Reissue
import Passdari.Lib.TokenTrails
import Passdari.Books.FreshNfts
import Passdari.Books.CloseRights
import Passdari.Books.Stranded
import Passdari.Lib.BoundTokens
import Passdari.Books.BoundNfts
import Passdari.Books.Retirement
import Passdari.Books.Closings
import Passdari.Books.Deadlines
import Passdari.Seeds
import Passdari.Books.Commitments
import Passdari.Books.CardUpgrade
import Passdari.Books.ShopUpgrade
import Passdari.Lib.Windows
import Passdari.Books.RateLimits
import Passdari.Books.Bounds
import Passdari.Effect.Overflows
import Passdari.Books.Aborts
import Passdari.Lib.Locality
import Passdari.Lib.TokenLocality
import Passdari.Effect.Footprints
import Passdari.Effect.Locality
import Passdari.Books.Tenants
import Passdari.Books.Cooldown
import Passdari.Books.Figures
import Passdari.Lib.HeldTokens
import Passdari.Books.CashingIn
import Passdari.Books.Delivery
import Passdari.Books.Claiming
import Passdari.Books.Earning
import Passdari.Books.WindDown
import Passdari.Books.Balances
import Passdari.Books.RentExempt
import Passdari.Scheme
import Passdari.Books.OnPaper
import Passdari.Books.OwnerHints
import Passdari.Books.Gifts
