import DukBridge.Lib.Binary64
import DukBridge.Lib.ExactIntegers
import DukBridge.Lib.Effect
import DukBridge.Lib.KeyStore
import DukBridge.Lib.Rendezvous
import DukBridge.Lib.SlotWalk
import DukBridge.ModuleKeys
import DukBridge.LoaderBinding
import DukBridge.KeyLifetimes
import DukBridge.LoaderSearch
import DukBridge.PoolServer
import DukBridge.HandleTable
import DukBridge.ArgumentLayout
import DukBridge.CallGoFunc
import DukBridge.NativeLayout
import DukBridge.StackNeutrality
import DukBridge.ResultDelivery
import DukBridge.PushRules
import DukBridge.ArgumentStack
import DukBridge.GoAttrs
import DukBridge.BufferFidelity
import DukBridge.IntegerFidelity
import DukBridge.Lib.PairStore
import DukBridge.PoolBijection
import DukBridge.UnhashedPool
import DukBridge.JavaArgs
import DukBridge.JavaOutcomes
import DukBridge.GoCalls
import DukBridge.GoInvocation
import DukBridge.ResultEncoding
import DukBridge.ArgumentPanics
import DukBridge.GlobalFunctions
import DukBridge.Finalization
import DukBridge.NativeObjects
import DukBridge.StructMethods
import DukBridge.HostErrors
import DukBridge.ResultOwnership
import DukBridge.EchoLaw
import DukBridge.HandedLengths
import DukBridge.FileVariants
import DukBridge.VariableAgreement
import DukBridge.ResourceRelease
import DukBridge.FunctionHandles
import DukBridge.HandleAccounts
import DukBridge.HandleDelivery
import DukBridge.DocumentedParameters
import DukBridge.DuktapeThreads
import DukBridge.FieldAgreement
import DukBridge.ModuleSearch
import DukBridge.ModHomeLiteral
import DukBridge.Lib.InPlace
import DukBridge.Lib.TermPath
import DukBridge.ModuleIds
import DukBridge.Lib.Recursion
import DukBridge.ModuleRuns
import DukBridge.Environments
import DukBridge.Lib.Filling
import DukBridge.Lib.Traversal
import DukBridge.ModuleProviders
import DukBridge.Printing
