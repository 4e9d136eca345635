import InfernoAutoscaler.Analyzer.QueueModel
import InfernoAutoscaler.Analyzer.MD1KModel
import InfernoAutoscaler.Analyzer.MD1ModelStateDependent
import InfernoAutoscaler.Analyzer.ProductForm
import InfernoAutoscaler.Analyzer.StateDependent.Probabilities
import InfernoAutoscaler.Analyzer.StateDependent.Statistics
import InfernoAutoscaler.Analyzer.StateDependent.Monotone
import InfernoAutoscaler.Analyzer.EmbeddedChain.Transition
import InfernoAutoscaler.Analyzer.EmbeddedChain.Iteration
import InfernoAutoscaler.Analyzer.EmbeddedChain.ResponseTime
import InfernoAutoscaler.Analyzer.Solve
import InfernoAutoscaler.Analyzer.History
import InfernoAutoscaler.Discovery.K8sWithGpuOperator
import InfernoAutoscaler.Discovery.Usage
import InfernoAutoscaler.Discovery.Order
import InfernoAutoscaler.Discovery.Inventory
import InfernoAutoscaler.Discovery.Pipeline
