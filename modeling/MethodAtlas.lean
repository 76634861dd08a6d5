import MethodAtlas.Attribute.Stored
import MethodAtlas.Files.Tree
import MethodAtlas.Navigation.Session
import MethodAtlas.Signature.Stored
import MethodAtlas.Table.Stored
import MethodAtlas.Proofs.Module.Gathered
import MethodAtlas.Proofs.Module.Attributes
import MethodAtlas.Proofs.Module.FlatLookup
import MethodAtlas.Proofs.Module.Members
import MethodAtlas.Proofs.Module.Paths
import MethodAtlas.Proofs.Query
import MethodAtlas.Proofs.Resolution.Alike
import MethodAtlas.Proofs.Resolution.BaseChain
import MethodAtlas.Proofs.Resolution.Discovery
import MethodAtlas.Proofs.Module.RoundTrip
import MethodAtlas.Proofs.Navigation.Answers
import MethodAtlas.Proofs.Navigation.Independence
import MethodAtlas.Proofs.Store.Requests
import MethodAtlas.Proofs.Table.RoundTrip
import MethodAtlas.Proofs.Signature.RoundTrip
import MethodAtlas.Proofs.Attribute.RoundTrip
import MethodAtlas.Proofs.Module.Ownership
import MethodAtlas.Proofs.Resolution.Ambiguity
import MethodAtlas.Proofs.Resolution.BrokenChains
import MethodAtlas.Proofs.Module.Declared
import MethodAtlas.Proofs.Module.SharedMethods
import MethodAtlas.Proofs.Resolution.Directory
import MethodAtlas.Proofs.Table.Acceptance
import MethodAtlas.Proofs.Resolution.Outcomes
import MethodAtlas.Proofs.Module.Cycles
import MethodAtlas.Proofs.Resolution.GeneratedArgument
import MethodAtlas.Proofs.Name.Insertions
import MethodAtlas.Proofs.Table.CodedIndexes
import MethodAtlas.Proofs.Metadata.RoundTrip
import MethodAtlas.Proofs.Resolution.MarkerChain
import MethodAtlas.Proofs.Bytes.Tokens
import MethodAtlas.Proofs.Signature.ExtraParameters
import MethodAtlas.Proofs.Sizes
import MethodAtlas.Proofs.Attribute.Nesting
import MethodAtlas.Proofs.Name.Qualification
import MethodAtlas.Proofs.Heap.Lookups
import MethodAtlas.Proofs.Module.RowBounds
