import RollappExplorer.Effect.Prog
import RollappExplorer.Effect.Service
import RollappExplorer.Effect.Loop
import RollappExplorer.Effect.Rely
import RollappExplorer.Effect.Aborting
import RollappExplorer.Go.Unicode
import RollappExplorer.Go.Strings
import RollappExplorer.Go.Numerals
import RollappExplorer.Go.Error
import RollappExplorer.Go.Map
import RollappExplorer.Text.Digits
import RollappExplorer.Text.Numeral
import RollappExplorer.Js.Text
import RollappExplorer.Js.Number
import RollappExplorer.Js.Big
import RollappExplorer.Js.Collections
import RollappExplorer.Js.Split
import RollappExplorer.Js.TimedCache
import RollappExplorer.Json.Lexer
import RollappExplorer.Json.Parser
import RollappExplorer.Json.Pieces
import RollappExplorer.Sql.Logic
import RollappExplorer.Sql.Lexer
import RollappExplorer.Sql.Select
import RollappExplorer.Sql.Order
import RollappExplorer.Sql.Paging
import RollappExplorer.Sql.Table
import RollappExplorer.Sql.Query
import RollappExplorer.Sql.Upsert
import RollappExplorer.Sql.Slice
import RollappExplorer.Sql.Recent
import RollappExplorer.Bech32
import RollappExplorer.Bech32.Decode
import RollappExplorer.Validation
import RollappExplorer.Records
import RollappExplorer.QueryBuilder
import RollappExplorer.TxHashes
import RollappExplorer.BlockSearch
import RollappExplorer.MessageContent
import RollappExplorer.RpcBatch
import RollappExplorer.Pages
import RollappExplorer.Numbers
import RollappExplorer.EvmLogs
import RollappExplorer.VotingPercent
import RollappExplorer.RpcAmounts
import RollappExplorer.ChainList
import RollappExplorer.Manager
import RollappExplorer.Partitions
import RollappExplorer.OldPartitions
import RollappExplorer.PartitionDdl
import RollappExplorer.Response
import RollappExplorer.HealthCheck
import RollappExplorer.TopResponse
import RollappExplorer.ActiveUrl
import RollappExplorer.Query
import RollappExplorer.BlockInformation
import RollappExplorer.Ledger
import RollappExplorer.Machine
import RollappExplorer.Database
import RollappExplorer.Schema
import RollappExplorer.TransactionPages
import RollappExplorer.References
import RollappExplorer.Pruning
import RollappExplorer.Involvement
import RollappExplorer.Contracts
import RollappExplorer.Progress
import RollappExplorer.FailedBlocks
import RollappExplorer.BlockRange
import RollappExplorer.SharedCache
import RollappExplorer.Indexing
import RollappExplorer.ContractSets
import RollappExplorer.SortedBlocks
import RollappExplorer.Retry
import RollappExplorer.MainLoop
import RollappExplorer.Simulation
import RollappExplorer.InvolvedAccounts
import RollappExplorer.Addresses
import RollappExplorer.Statements
import RollappExplorer.Committing
import RollappExplorer.Reindexing
import RollappExplorer.Iterations
import RollappExplorer.Scenario
import RollappExplorer.NewBlocks
import RollappExplorer.Batches
import RollappExplorer.Retries
import RollappExplorer.Conversions
import RollappExplorer.Startup
import RollappExplorer.Postponement
import RollappExplorer.TransactionSearch
import RollappExplorer.RollappPaths
import RollappExplorer.DenomsMetadata
import RollappExplorer.AddressTokens
import RollappExplorer.RecentBlocks
import RollappExplorer.Isolation
import RollappExplorer.ChainInfo
import RollappExplorer.Fallbehind
import RollappExplorer.QueryCache
import RollappExplorer.AddressPages
import RollappExplorer.RollappStore
import RollappExplorer.RpcHooks
import RollappExplorer.AccountHistory
import RollappExplorer.RetriedBlocks
